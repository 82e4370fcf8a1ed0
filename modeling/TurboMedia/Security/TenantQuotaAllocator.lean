import TurboMedia.Security.TenantQuota

/-!
# Tenant-wide quota allocator

Model of `turbo_media_tenant_quota_allocator.c`: the control-plane component
that owns the tenant caps and the leases issued to nodes.

Both tables are lists of slots, `none` being a zeroed slot.  Sums of limits are
`uint64_t` as in the source.  A lease or a policy in a slot has the same fields
as the argument it was copied from, so the slot types are those of the
arguments.  The allocations that can fail are arguments of `applySnapshot`.

The last section lists, for each call, everything it can do to the state.
-/

namespace TurboMedia.TenantQuotaAllocator

open TenantQuota SlotTable

/-- `TURBO_MEDIA_TENANT_QUOTA_MAX_ISSUED_LEASES`. -/
def maxIssuedLeasesBound : ℕ := 4096

/-- `turbo_media_tenant_quota_policy_t`. -/
structure Policy where
  tenantId : CStr
  limits : Limits
deriving DecidableEq

inductive AllocatorResult where
  | error
  | applied
  | stale
  | gap
  | limit
  | overcommitted
  | notFound
  | unknown
deriving DecidableEq

/-- `turbo_media_tenant_quota_allocator_t`. -/
structure Allocator extends Cursor where
  maxTenants : ℕ
  maxIssuedLeases : ℕ
  policies : List (Option Policy)
  leases : List (Option Lease)

/-- `allocator_require_snapshot`. -/
def allocatorRequireSnapshot (a : Allocator) (epoch sequence : UInt64) : Allocator :=
  { a with toCursor := a.toCursor.requireSnapshot epoch sequence }

/-- `allocator_find_policy` and `allocator_find_policy_const`. -/
def allocatorFindPolicy (a : Allocator) (tenantId : CStr) : Option (ℕ × Policy) :=
  findOccupied (fun slot => slot.tenantId == tenantId) a.policies

def allocatorFindLease (a : Allocator) (tenantId nodeId : CStr) : Option (ℕ × Lease) :=
  findOccupied (fun slot => slot.tenantId == tenantId && slot.nodeId == nodeId) a.leases

/-- The lease is live: its expiry lies after `nowUnixMs`. -/
def unexpired (nowUnixMs : UInt64) (lease : Lease) : Bool :=
  !decide (nowUnixMs ≥ lease.expiresAtUnixMs)

def allocatorPruneExpired (a : Allocator) (nowUnixMs : UInt64) : Allocator :=
  { a with leases := a.leases.map (Option.filter (unexpired nowUnixMs)) }

def allocatorPolicyInputValid (policy : Policy) : Bool :=
  tenantIdValid policy.tenantId

def allocatorLeaseInputValid (lease : Lease) (nowUnixMs : UInt64) : Bool :=
  tenantIdValid lease.tenantId && nodeIdValid lease.nodeId &&
    decide (lease.expiresAtUnixMs > nowUnixMs)

/-- The loop of `allocator_policy_snapshot_valid`. -/
def policyEntriesValid : List Policy → List Policy → Bool
  | _, [] => true
  | previous, policy :: rest =>
    allocatorPolicyInputValid policy &&
      !previous.any (fun old => old.tenantId == policy.tenantId) &&
      policyEntriesValid (previous ++ [policy]) rest

/-- `allocator_policy_snapshot_valid`; `none` is a null array with a positive
count. -/
def allocatorPolicySnapshotValid (policies : Option (List Policy)) (maxTenants : ℕ) : Bool :=
  match policies with
  | none => false
  | some policies =>
    decide (policies.length ≤ maxTenants) && decide (policies.length ≤ maxTenantsBound) &&
      policyEntriesValid [] policies

/-- `allocator_input_policy_find`, with the position of the policy. -/
def allocatorInputPolicyFind (policies : List Policy) (tenantId : CStr) : Option (ℕ × Policy) :=
  findOccupied (fun policy => policy.tenantId == tenantId)
    (policies.map some)

/-- Accumulators of the snapshot check, one row for each policy. -/
abbrev Totals := ℕ → Resource → UInt64

/-- `totals` with the limits of one lease added to one row. -/
def addTotals (totals : Totals) (row : ℕ) (limits : Limits) : Totals :=
  Function.update totals row (fun r => totals row r + (limits r).toUInt64)

/-- The loop of `allocator_snapshot_leases_valid`. -/
def leaseEntriesValid (policies : List Policy) (nowUnixMs : UInt64) :
    List Lease → Totals → List Lease → Bool
  | _, _, [] => true
  | previous, totals, lease :: rest =>
    if !allocatorLeaseInputValid lease nowUnixMs then false
    else if previous.any
        (fun old => old.tenantId == lease.tenantId && old.nodeId == lease.nodeId) then
      false
    else
      match allocatorInputPolicyFind policies lease.tenantId with
      | none => false
      | some (row, policy) =>
        let totals := addTotals totals row lease.limits
        if Resource.all.any (fun r => totals row r > (policy.limits r).toUInt64) then false
        else leaseEntriesValid policies nowUnixMs (previous ++ [lease]) totals rest

/-- Which allocations of `apply_snapshot` succeed: the accumulators of the
check, and the two new tables. -/
structure SnapshotMemory where
  totals : Bool
  tables : Bool

/-- `allocator_snapshot_leases_valid`. -/
def allocatorSnapshotLeasesValid (policies : List Policy) (leases : Option (List Lease))
    (maxIssuedLeases : ℕ) (nowUnixMs : UInt64) (totalsMemory : Bool) : Bool :=
  match leases with
  | none => false
  | some leases =>
    if leases.length > maxIssuedLeases || leases.length > maxIssuedLeasesBound then false
    else if policies.length > (2 ^ 64 - 1) / (5 * 8) then false
    else if policies.length > 0 && !totalsMemory then false
    else leaseEntriesValid policies nowUnixMs [] (fun _ _ => 0) leases

/-- `allocator_exact_next` for a synchronized allocator. -/
def allocatorExactNext (a : Allocator) (epoch sequence : UInt64) : Bool :=
  !(epoch != a.epoch || a.sequence == UInt64.ofNat (2 ^ 64 - 1) ||
    sequence != a.sequence + 1)

/-- The loop of `allocator_commitments_for_tenant` from slot `index` on. -/
def commitmentsFrom (tenantId : CStr) (exclude : Option ℕ) :
    ℕ → (Resource → UInt64) → List (Option Lease) → Resource → UInt64
  | _, out, [] => out
  | index, out, none :: rest => commitmentsFrom tenantId exclude (index + 1) out rest
  | index, out, some slot :: rest =>
    if exclude == some index || slot.tenantId != tenantId then
      commitmentsFrom tenantId exclude (index + 1) out rest
    else
      commitmentsFrom tenantId exclude (index + 1) (fun r => out r + (slot.limits r).toUInt64) rest

/-- `allocator_commitments_for_tenant`; `exclude` is the slot left out. -/
def allocatorCommitmentsForTenant
    (a : Allocator) (tenantId : CStr) (exclude : Option ℕ) : Resource → UInt64 :=
  commitmentsFrom tenantId exclude 0 (fun _ => 0) a.leases

/-- `turbo_media_tenant_quota_allocator_create`, when memory is available. -/
def create (maxTenants maxIssuedLeases : ℕ) : Option Allocator :=
  if maxTenants == 0 || decide (maxTenants > maxTenantsBound) ||
      maxIssuedLeases == 0 || decide (maxIssuedLeases > maxIssuedLeasesBound) then
    none
  else
    some
      { Cursor.create with
        maxTenants := maxTenants
        maxIssuedLeases := maxIssuedLeases
        policies := List.replicate maxTenants none
        leases := List.replicate maxIssuedLeases none }

variable (a : Allocator)

/-- `turbo_media_tenant_quota_allocator_apply_snapshot`. -/
def applySnapshot (epoch sequence : UInt64)
    (policies : Option (List Policy)) (leases : Option (List Lease))
    (nowUnixMs : UInt64) (memory : SnapshotMemory) : Allocator × AllocatorResult :=
  if epoch == 0 then (a, .error)
  else if a.toCursor.snapshotStale epoch sequence then (a, .stale)
  else if !allocatorPolicySnapshotValid policies a.maxTenants ||
      !allocatorSnapshotLeasesValid (policies.getD []) leases
        a.maxIssuedLeases nowUnixMs memory.totals then
    (allocatorRequireSnapshot a epoch sequence, .error)
  else if !memory.tables then (allocatorRequireSnapshot a epoch sequence, .error)
  else
    ({ a with
        toCursor := Cursor.install epoch sequence
        policies := fill a.maxTenants (policies.getD [])
        leases := fill a.maxIssuedLeases (leases.getD []) },
      .applied)

/-- The version checks that `set_policy`, `grant` and `revoke` share: `body`
runs on an exact-next version. -/
def atExactNext (epoch sequence : UInt64)
    (body : Allocator → Allocator × AllocatorResult) : Allocator × AllocatorResult :=
  if !a.synchronized then (allocatorRequireSnapshot a epoch sequence, .unknown)
  else if versionCompare epoch sequence a.epoch a.sequence ≤ 0 then (a, .stale)
  else if !allocatorExactNext a epoch sequence then
    (allocatorRequireSnapshot a epoch sequence, .gap)
  else body a

/-- `turbo_media_tenant_quota_allocator_set_policy`; `none` is a null policy. -/
def setPolicy (epoch sequence : UInt64)
    (policy : Option Policy) (nowUnixMs : UInt64) : Allocator × AllocatorResult :=
  match policy with
  | none => (a, .error)
  | some policy =>
    if !allocatorPolicyInputValid policy then (a, .error)
    else
      atExactNext a epoch sequence fun a =>
        let a := allocatorPruneExpired a nowUnixMs
        let committed := allocatorCommitmentsForTenant a policy.tenantId none
        if Resource.all.any (fun r => committed r > (policy.limits r).toUInt64) then
          (a, .overcommitted)
        else
          let slot :=
            match allocatorFindPolicy a policy.tenantId with
            | some (index, _) => some index
            | none => a.policies.findIdx? Option.isNone
          match slot with
          | none => (a, .limit)
          | some index =>
            ({ a with
                sequence := sequence
                policies := a.policies.set index (some policy) },
              .applied)

/-- `turbo_media_tenant_quota_allocator_grant`; `none` is a null lease. -/
def grant (epoch sequence : UInt64) (lease : Option Lease) (nowUnixMs : UInt64) :
    Allocator × AllocatorResult :=
  match lease with
  | none => (a, .error)
  | some lease =>
    if !allocatorLeaseInputValid lease nowUnixMs then (a, .error)
    else
      atExactNext a epoch sequence fun a =>
        let a := allocatorPruneExpired a nowUnixMs
        match allocatorFindPolicy a lease.tenantId with
        | none => (a, .notFound)
        | some (_, policy) =>
          let old := (allocatorFindLease a lease.tenantId lease.nodeId).map Prod.fst
          let committed := allocatorCommitmentsForTenant a lease.tenantId old
          if Resource.all.any (fun r =>
              committed r + (lease.limits r).toUInt64 > (policy.limits r).toUInt64) then
            (a, .overcommitted)
          else
            let slot :=
              match old with
              | some index => some index
              | none => a.leases.findIdx? Option.isNone
            match slot with
            | none => (a, .limit)
            | some index =>
              ({ a with
                  sequence := sequence
                  leases := a.leases.set index (some lease) },
                .applied)

/-- `turbo_media_tenant_quota_allocator_revoke`. -/
def revoke (epoch sequence : UInt64) (tenantId nodeId : CStr) (nowUnixMs : UInt64) :
    Allocator × AllocatorResult :=
  if !tenantIdValid tenantId || !nodeIdValid nodeId then (a, .error)
  else
    atExactNext a epoch sequence fun a =>
      let a := allocatorPruneExpired a nowUnixMs
      match allocatorFindLease a tenantId nodeId with
      | none => (a, .notFound)
      | some (index, _) =>
        ({ a with
            sequence := sequence
            leases := a.leases.set index none },
          .applied)

/-- A node's complete lease snapshot at an allocator version. -/
structure NodeSnapshot where
  nodeId : CStr
  epoch : UInt64
  sequence : UInt64
  leases : List Lease

/-- `turbo_media_tenant_quota_allocator_build_node_snapshot`; `none` is the
return value -1. -/
def buildNodeSnapshot (a : Allocator) (nodeId : CStr) (nowUnixMs : UInt64) (capacity : ℕ) :
    Allocator × Option NodeSnapshot :=
  if !nodeIdValid nodeId || !a.synchronized then (a, none)
  else
    let a := allocatorPruneExpired a nowUnixMs
    let leases := a.leases.reduceOption.filter (fun slot => slot.nodeId == nodeId)
    if leases.length > capacity then (a, none)
    else (a, some ⟨nodeId, a.epoch, a.sequence, leases⟩)

/-- What `turbo_media_tenant_quota_allocator_commitment` reports. -/
structure Commitment where
  policy : Limits
  issued : Limits

/-- `turbo_media_tenant_quota_allocator_commitment`; `none` is the return
value -1. -/
def commitment (a : Allocator) (tenantId : CStr) (nowUnixMs : UInt64) :
    Allocator × Option Commitment :=
  if !tenantIdValid tenantId || !a.synchronized then (a, none)
  else
    let a := allocatorPruneExpired a nowUnixMs
    match allocatorFindPolicy a tenantId with
    | none => (a, none)
    | some (_, policy) =>
      let committed := allocatorCommitmentsForTenant a tenantId none
      if Resource.all.any (fun r => committed r > UInt64.ofNat (2 ^ 32 - 1)) then (a, none)
      else (a, some ⟨policy.limits, fun r => (committed r).toUInt32⟩)

inductive Op where
  | applySnapshot (epoch sequence : UInt64) (policies : Option (List Policy))
      (leases : Option (List Lease)) (nowUnixMs : UInt64) (memory : SnapshotMemory)
  | setPolicy (epoch sequence : UInt64) (policy : Option Policy) (nowUnixMs : UInt64)
  | grant (epoch sequence : UInt64) (lease : Option Lease) (nowUnixMs : UInt64)
  | revoke (epoch sequence : UInt64) (tenantId nodeId : CStr) (nowUnixMs : UInt64)
  | buildNodeSnapshot (nodeId : CStr) (nowUnixMs : UInt64) (capacity : ℕ)
  | commitment (tenantId : CStr) (nowUnixMs : UInt64)

inductive Answer where
  | result (result : AllocatorResult)
  | nodeSnapshot (snapshot : Option NodeSnapshot)
  | commitment (report : Option Commitment)

def machine : Machine Allocator Op Answer where
  step a
    | .applySnapshot epoch sequence policies leases nowUnixMs memory =>
      Prod.map id .result (applySnapshot a epoch sequence policies leases nowUnixMs memory)
    | .setPolicy epoch sequence policy nowUnixMs =>
      Prod.map id .result (setPolicy a epoch sequence policy nowUnixMs)
    | .grant epoch sequence lease nowUnixMs =>
      Prod.map id .result (grant a epoch sequence lease nowUnixMs)
    | .revoke epoch sequence tenantId nodeId nowUnixMs =>
      Prod.map id .result (revoke a epoch sequence tenantId nodeId nowUnixMs)
    | .buildNodeSnapshot nodeId nowUnixMs capacity =>
      Prod.map id .nodeSnapshot (buildNodeSnapshot a nodeId nowUnixMs capacity)
    | .commitment tenantId nowUnixMs => Prod.map id .commitment (commitment a tenantId nowUnixMs)

/-- The write of an accepted update to an allocator without expired leases. -/
inductive Write (nowUnixMs : UInt64) : Allocator → Allocator → Prop
  | policy {a : Allocator} {index : ℕ} {old : Option Policy} {policy : Policy} :
      a.policies[index]? = some old →
      (∀ q ∈ old, q.tenantId = policy.tenantId) →
      (old = none → ∀ q ∈ a.policies.reduceOption, q.tenantId ≠ policy.tenantId) →
      (∀ r, allocatorCommitmentsForTenant a policy.tenantId none r ≤ (policy.limits r).toUInt64) →
      Write nowUnixMs a { a with policies := a.policies.set index (some policy) }
  | lease {a : Allocator} {index row : ℕ} {old : Option Lease} {lease : Lease}
      {policy : Policy} :
      a.leases[index]? = some old →
      (∀ d ∈ old, d.tenantId = lease.tenantId ∧ d.nodeId = lease.nodeId) →
      (old = none → ∀ d ∈ a.leases.reduceOption,
        ¬ (d.tenantId = lease.tenantId ∧ d.nodeId = lease.nodeId)) →
      allocatorLeaseInputValid lease nowUnixMs = true →
      allocatorFindPolicy a lease.tenantId = some (row, policy) →
      (∀ r, allocatorCommitmentsForTenant a lease.tenantId
          (old.map (fun _ => index)) r + (lease.limits r).toUInt64 ≤
        (policy.limits r).toUInt64) →
      Write nowUnixMs a { a with leases := a.leases.set index (some lease) }
  | drop {a : Allocator} {index : ℕ} {lease : Lease} :
      a.leases[index]? = some (some lease) →
      Write nowUnixMs a { a with leases := a.leases.set index none }

/-- What `set_policy`, `grant` and `revoke` can do to an allocator. -/
inductive UpdateOutcome (a : Allocator) (epoch sequence nowUnixMs : UInt64) :
    Allocator × AllocatorResult → Prop
  | refused :
      UpdateOutcome a epoch sequence nowUnixMs (a, .error)
  | unknown :
      a.synchronized = false →
      UpdateOutcome a epoch sequence nowUnixMs (allocatorRequireSnapshot a epoch sequence, .unknown)
  | stale :
      a.synchronized = true →
      UpdateOutcome a epoch sequence nowUnixMs (a, .stale)
  | gap :
      a.synchronized = true →
      a.version < Version.of epoch sequence →
      UpdateOutcome a epoch sequence nowUnixMs (allocatorRequireSnapshot a epoch sequence, .gap)
  | rejected {result : AllocatorResult} :
      a.synchronized = true →
      result = .overcommitted ∨ result = .limit ∨ result = .notFound →
      UpdateOutcome a epoch sequence nowUnixMs (allocatorPruneExpired a nowUnixMs, result)
  | applied {b : Allocator} :
      a.synchronized = true →
      a.version < Version.of epoch sequence →
      epoch = a.epoch →
      Write nowUnixMs (allocatorPruneExpired a nowUnixMs) b →
      UpdateOutcome a epoch sequence nowUnixMs ({ b with sequence := sequence }, .applied)

variable (a : Allocator) (epoch sequence nowUnixMs : UInt64)

theorem atExactNext_outcome {body : Allocator → Allocator × AllocatorResult}
    (h : a.synchronized = true → a.version < Version.of epoch sequence → epoch = a.epoch →
      UpdateOutcome a epoch sequence nowUnixMs (body a)) :
    UpdateOutcome a epoch sequence nowUnixMs (atExactNext a epoch sequence body) := by
  unfold atExactNext
  split_ifs with hsync hstale hnext
  · exact .unknown (by simpa using hsync)
  · exact .stale (by simpa using hsync)
  · exact .gap (by simpa using hsync)
      ((versionCompare_pos_iff _ _ _ _).mp (not_le.mp hstale))
  · refine h (by simpa using hsync)
      ((versionCompare_pos_iff _ _ _ _).mp (not_le.mp hstale)) ?_
    simp only [allocatorExactNext, Bool.not_not, Bool.or_eq_true, bne_iff_ne,
      ne_eq, beq_iff_eq, not_or, not_not] at hnext
    exact hnext.1.1

theorem any_gt_eq_false {f g : Resource → UInt64}
    (h : ¬ Resource.all.any (fun r => f r > g r) = true) (r : Resource) : f r ≤ g r := by
  simp only [gt_iff_lt, List.any_eq_true, decide_eq_true_eq, not_exists, not_and] at h
  exact UInt64.not_lt.mp (h r r.mem_all)

theorem setPolicy_outcome (policy : Option Policy) :
    UpdateOutcome a epoch sequence nowUnixMs (setPolicy a epoch sequence policy nowUnixMs) := by
  unfold setPolicy
  cases policy with
  | none => exact .refused
  | some policy =>
    dsimp only
    split_ifs with hvalid
    · exact .refused
    apply atExactNext_outcome
    intro hsync hlt hepoch
    split_ifs with hover
    · exact .rejected hsync (Or.inl rfl)
    cases hfind : allocatorFindPolicy (allocatorPruneExpired a nowUnixMs) policy.tenantId with
    | some e =>
      obtain ⟨index, old⟩ := e
      obtain ⟨hget, hkey⟩ := findOccupied_some hfind
      refine .applied hsync hlt hepoch (@Write.policy _ _ index (some old) policy hget ?_ (by simp)
          (any_gt_eq_false hover))
      intro q hq
      rw [← Option.some.inj hq]
      simpa using hkey
    | none =>
      cases hfree : (allocatorPruneExpired a nowUnixMs).policies.findIdx? Option.isNone with
      | none => exact .rejected hsync (Or.inr (Or.inl rfl))
      | some index =>
        obtain ⟨o, hget, ho⟩ := findIdx?_getElem? hfree
        rw [Option.isNone_iff_eq_none] at ho
        subst ho
        refine .applied hsync hlt hepoch (.policy hget (by simp) ?_ (any_gt_eq_false hover))
        intro _ q hq
        simpa using findOccupied_none hfind q hq

theorem grant_outcome (lease : Option Lease) :
    UpdateOutcome a epoch sequence nowUnixMs (grant a epoch sequence lease nowUnixMs) := by
  unfold grant
  cases lease with
  | none => exact .refused
  | some lease =>
    dsimp only
    split_ifs with hvalid
    · exact .refused
    apply atExactNext_outcome
    intro hsync hlt hepoch
    cases hpolicy : allocatorFindPolicy (allocatorPruneExpired a nowUnixMs) lease.tenantId with
    | none => exact .rejected hsync (Or.inr (Or.inr rfl))
    | some e =>
      obtain ⟨row, policy⟩ := e
      dsimp only
      split_ifs with hover
      · exact .rejected hsync (Or.inl rfl)
      have hroom := any_gt_eq_false hover
      have hvalid' : allocatorLeaseInputValid lease nowUnixMs = true := by
        simpa using hvalid
      cases hfind : allocatorFindLease (allocatorPruneExpired a nowUnixMs)
          lease.tenantId lease.nodeId with
      | some e =>
        obtain ⟨index, old⟩ := e
        obtain ⟨hget, hkey⟩ := findOccupied_some hfind
        rw [hfind] at hroom
        refine .applied hsync hlt hepoch
          (@Write.lease _ _ index row (some old) lease policy hget ?_ (by simp)
            hvalid' hpolicy hroom)
        intro d hd
        rw [← Option.some.inj hd]
        simpa using hkey
      | none =>
        rw [hfind] at hroom
        cases hfree : (allocatorPruneExpired a nowUnixMs).leases.findIdx? Option.isNone with
        | none => exact .rejected hsync (Or.inr (Or.inl rfl))
        | some index =>
          obtain ⟨o, hget, ho⟩ := findIdx?_getElem? hfree
          rw [Option.isNone_iff_eq_none] at ho
          subst ho
          refine .applied hsync hlt hepoch (.lease hget (by simp) ?_ hvalid' hpolicy hroom)
          intro _ d hd
          simpa using findOccupied_none hfind d hd

theorem revoke_outcome (tenantId nodeId : CStr) :
    UpdateOutcome a epoch sequence nowUnixMs
      (revoke a epoch sequence tenantId nodeId nowUnixMs) := by
  unfold revoke
  split_ifs with hvalid
  · exact .refused
  apply atExactNext_outcome
  intro hsync hlt hepoch
  dsimp only
  cases hfind : allocatorFindLease (allocatorPruneExpired a nowUnixMs) tenantId nodeId with
  | none => exact .rejected hsync (Or.inr (Or.inr rfl))
  | some e =>
    exact .applied hsync hlt hepoch (.drop (findOccupied_some hfind).1)

/-- What a snapshot can do to an allocator. -/
inductive SnapshotOutcome :
    Option (List Policy) → Option (List Lease) →
    Allocator × AllocatorResult → Prop
  | refused {policies leases} :
      epoch = 0 →
      SnapshotOutcome policies leases (a, .error)
  | stale {policies leases} :
      SnapshotOutcome policies leases (a, .stale)
  | asked {policies leases} :
      epoch ≠ 0 →
      a.toCursor.snapshotStale epoch sequence = false →
      SnapshotOutcome policies leases (allocatorRequireSnapshot a epoch sequence, .error)
  | applied {policies : List Policy} {leases : List Lease} :
      epoch ≠ 0 →
      a.toCursor.snapshotStale epoch sequence = false →
      policies.length ≤ a.maxTenants →
      policyEntriesValid [] policies = true →
      leases.length ≤ a.maxIssuedLeases →
      leases.length ≤ maxIssuedLeasesBound →
      leaseEntriesValid policies nowUnixMs [] (fun _ _ => 0) leases = true →
      SnapshotOutcome (some policies) (some leases)
        ({ a with
            toCursor := Cursor.install epoch sequence
            policies := fill a.maxTenants policies
            leases := fill a.maxIssuedLeases leases },
          .applied)

theorem applySnapshot_outcome (policies : Option (List Policy)) (leases : Option (List Lease))
    (memory : SnapshotMemory) :
    SnapshotOutcome a epoch sequence nowUnixMs policies leases
      (applySnapshot a epoch sequence policies leases nowUnixMs memory) := by
  unfold applySnapshot
  split_ifs with hepoch hstale hinv hmem
  · exact .refused (by simpa using hepoch)
  · exact .stale
  · exact .asked (by simpa using hepoch) (by simpa using hstale)
  · exact .asked (by simpa using hepoch) (by simpa using hstale)
  · simp only [Bool.or_eq_true, Bool.not_eq_true', not_or,
      Bool.not_eq_false] at hinv
    obtain ⟨hpol, hlea⟩ := hinv
    cases policies with
    | none => simp [allocatorPolicySnapshotValid] at hpol
    | some policies =>
      cases leases with
      | none => simp [allocatorSnapshotLeasesValid] at hlea
      | some leases =>
        simp only [allocatorPolicySnapshotValid, Bool.and_eq_true, decide_eq_true_eq] at hpol
        simp only [allocatorSnapshotLeasesValid, Option.getD_some] at hlea
        split_ifs at hlea with hlen
        simp only [Bool.or_eq_true, decide_eq_true_eq, not_or, not_lt] at hlen
        exact .applied (by simpa using hepoch) (by simpa using hstale)
          hpol.1.1 hpol.2 hlen.1 hlen.2 hlea

end TurboMedia.TenantQuotaAllocator
