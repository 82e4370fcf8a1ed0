import TurboMedia.Security.ControlPlaneRuns

/-!
# The allocator keeps a funded ledger

The allocator's tables are read as a capped ledger: policies are caps, issued
leases are claims charged to their tenant.  Every call keeps the ledger funded,
from any reachable state and at any clock value.

* `commitments_toNat`: the `uint64_t` accumulators are the exact sums;
* `leaseEntriesValid_funded`: the snapshot check, with its own accumulators,
  accepts only funded ledgers;
* `machine_funded`, `run_funded`: the step and the run lemma.
-/

namespace TurboMedia.TenantQuotaAllocator

open List SlotTable Ledger

open TenantQuota

/-- Policies as caps and issued leases as claims. -/
def books : Ledger.Books Policy Lease CStr (CStr × CStr) Resource where
  account := Policy.tenantId
  cap policy r := (policy.limits r).toNat
  owner := Lease.tenantId
  key lease := (lease.tenantId, lease.nodeId)
  amount lease r := (lease.limits r).toNat

/-- Exact sum of the limits of a tenant's leases. -/
def committedLimits (leases : List Lease) (tenantId : CStr) (r : Resource) : ℕ :=
  committed books leases tenantId r

/-- The tables of the allocator form a funded ledger. -/
def Funded (a : Allocator) : Prop :=
  Ledger.Funded books a.policies.reduceOption a.leases.reduceOption

theorem toNat_add_limit {x : UInt64} {limit : UInt32} (h : x.toNat + limit.toNat < 2 ^ 64) :
    (x + limit.toUInt64).toNat = x.toNat + limit.toNat := by
  rw [UInt64.toNat_add, UInt32.toNat_toUInt64, Nat.mod_eq_of_lt h]

theorem commitmentsFrom_toNat (tenantId : CStr) {r : Resource}
    (slots : List (Option Lease)) (index : ℕ) (out : Resource → UInt64)
    (h : (out r).toNat + committedLimits slots.reduceOption tenantId r < 2 ^ 64) :
    (commitmentsFrom tenantId none index out slots r).toNat =
      (out r).toNat + committedLimits slots.reduceOption tenantId r := by
  induction slots generalizing index out with
  | nil => rfl
  | cons o slots ih =>
    cases o with
    | none => exact ih (index + 1) out h
    | some slot =>
      rw [reduceOption_cons_of_some, committedLimits, committed_cons] at h ⊢
      unfold commitmentsFrom
      by_cases hten : slot.tenantId = tenantId
      · have howner : books.owner slot = tenantId := hten
        rw [if_pos howner] at h ⊢
        have hadd : (out r + (slot.limits r).toUInt64).toNat =
            (out r).toNat + (slot.limits r).toNat := by
          apply toNat_add_limit
          exact lt_of_le_of_lt (Nat.add_le_add_left (Nat.le_add_right _ _) _) h
        have hrest := ih (index + 1) (fun r => out r + (slot.limits r).toUInt64)
          (by rw [hadd, Nat.add_assoc]; exact h)
        rw [if_neg (by simp [hten]), hrest, hadd, Nat.add_assoc]
        rfl
      · have howner : ¬ books.owner slot = tenantId := hten
        rw [if_neg howner, zero_add] at h ⊢
        rw [if_pos (by simp [hten])]
        exact ih (index + 1) out h

theorem commitmentsFrom_passed (tenantId : CStr) {excluded : ℕ}
    (slots : List (Option Lease)) (index : ℕ) (out : Resource → UInt64) (h : excluded < index) :
    commitmentsFrom tenantId (some excluded) index out slots =
      commitmentsFrom tenantId none index out slots := by
  induction slots generalizing index out with
  | nil => rfl
  | cons o slots ih =>
    cases o with
    | none => exact ih (index + 1) out (by omega)
    | some slot =>
      have hne : (some excluded == some index) = false := by
        simp only [Option.some_beq_some, beq_eq_false_iff_ne, ne_eq]
        omega
      unfold commitmentsFrom
      rw [hne, ih (index + 1) _ (by omega), ih (index + 1) _ (by omega)]
      rfl

theorem commitmentsFrom_exclude (tenantId : CStr)
    (slots : List (Option Lease)) (i index : ℕ) (out : Resource → UInt64) :
    commitmentsFrom tenantId (some (index + i)) index out slots =
      commitmentsFrom tenantId none index out (slots.set i none) := by
  induction slots generalizing i index out with
  | nil => rfl
  | cons o slots ih =>
    cases i with
    | zero =>
      have hpass := commitmentsFrom_passed tenantId
        slots (index + 1) out (by omega : index < index + 1)
      cases o with
      | none => exact hpass
      | some slot =>
        unfold commitmentsFrom
        rw [if_pos (by simp)]
        exact hpass
    | succ i =>
      have hshift : index + (i + 1) = index + 1 + i := by omega
      rw [hshift, set_cons_succ]
      cases o with
      | none => exact ih i (index + 1) out
      | some slot =>
        have hne : (some (index + 1 + i) == some index) = false := by
          simp only [Option.some_beq_some, beq_eq_false_iff_ne, ne_eq]
          omega
        unfold commitmentsFrom
        rw [hne, ih i (index + 1), ih i (index + 1)]
        rfl

variable {policies : List Policy} {leases : List Lease}

theorem committedLimits_lt
    (h : Ledger.Funded books policies leases) (tenantId : CStr) (r : Resource) :
    committedLimits leases tenantId r < 2 ^ 32 := by
  by_cases hcap : ∃ p ∈ policies, p.tenantId = tenantId
  · obtain ⟨p, hp, rfl⟩ := hcap
    exact lt_of_le_of_lt (h.covered p hp r) (p.limits r).toNat_lt
  · have hnone : ∀ l ∈ leases, books.owner l ≠ tenantId := by
      intro l hl heq
      obtain ⟨p, hp, hacc⟩ := h.owned l hl
      exact hcap ⟨p, hp, hacc.trans heq⟩
    rw [committedLimits, committed_eq_zero hnone]
    decide

variable {a : Allocator}

/-- `allocator_commitments_for_tenant` computes the exact sum over the slots
that it does not leave out. -/
theorem commitments_toNat (h : Funded a) (tenantId : CStr) (r : Resource) :
    (allocatorCommitmentsForTenant a tenantId none r).toNat =
      committedLimits a.leases.reduceOption tenantId r := by
  have hlt := committedLimits_lt h tenantId r
  have hsum := commitmentsFrom_toNat tenantId (r := r) a.leases 0 (fun _ => 0)
    (lt_of_eq_of_lt (Nat.zero_add _) (lt_trans hlt (by decide)))
  exact hsum.trans (Nat.zero_add _)

theorem commitments_exclude_toNat {index : ℕ} {o : Option Lease} (h : Funded a)
    (hget : a.leases[index]? = some o) (tenantId : CStr) (r : Resource) :
    (allocatorCommitmentsForTenant a tenantId (some index) r).toNat =
      committedLimits (a.leases.set index none).reduceOption tenantId r := by
  have hrest : Funded { a with leases := a.leases.set index none } :=
    h.forget (set_none_subperm hget)
  have hsum := commitments_toNat hrest tenantId r
  have hex := commitmentsFrom_exclude tenantId a.leases index 0 (fun _ => 0)
  rw [Nat.zero_add] at hex
  unfold allocatorCommitmentsForTenant at hsum ⊢
  rw [hex]
  exact hsum

theorem policyEntriesValid_spec {previous : List Policy}
    (h : policyEntriesValid previous policies = true) :
    (policies.map Policy.tenantId).Nodup ∧
      ∀ policy ∈ policies, ∀ old ∈ previous, old.tenantId ≠ policy.tenantId := by
  induction policies generalizing previous with
  | nil => simp
  | cons policy rest ih =>
    simp only [policyEntriesValid, Bool.and_eq_true, Bool.not_eq_true'] at h
    obtain ⟨⟨_, hfresh⟩, hrest⟩ := h
    obtain ⟨hnodup, hprev⟩ := ih hrest
    have hfresh' : ∀ old ∈ previous, old.tenantId ≠ policy.tenantId := by
      simpa using hfresh
    refine ⟨?_, ?_⟩
    · rw [map_cons, nodup_cons, mem_map]
      refine ⟨?_, hnodup⟩
      rintro ⟨other, hother, heq⟩
      exact hprev other hother policy (by simp) heq.symm
    · intro other hother old hold
      rcases mem_cons.mp hother with rfl | hother
      · exact hfresh' old hold
      · exact hprev other hother old (mem_append_left _ hold)

theorem allocatorInputPolicyFind_some {tenantId : CStr} {row : ℕ} {policy : Policy}
    (h : allocatorInputPolicyFind policies tenantId = some (row, policy)) :
    policies[row]? = some policy ∧ policy.tenantId = tenantId := by
  obtain ⟨hget, hkey⟩ := findOccupied_some h
  simp only [getElem?_map, Option.map_eq_some_iff, Option.some.injEq, exists_eq_right] at hget
  exact ⟨hget, by simpa using hkey⟩

/-- The accumulators hold, row by row, the sums of the leases seen so far. -/
def TotalsExact (policies : List Policy) (totals : Totals) (leases : List Lease) : Prop :=
  ∀ row policy, policies[row]? = some policy →
    ∀ r, (totals row r).toNat = committedLimits leases policy.tenantId r

theorem TotalsExact.snoc {totals : Totals}
    {row : ℕ} {policy : Policy} {lease : Lease} (h : TotalsExact policies totals leases)
    (hfunded : Ledger.Funded books policies leases) (hget : policies[row]? = some policy)
    (hten : policy.tenantId = lease.tenantId) :
    TotalsExact policies (addTotals totals row lease.limits) (leases ++ [lease]) := by
  intro row' policy' hget' r
  rw [committedLimits, committed_append, committed_cons,
    committed_nil, add_zero]
  by_cases hrow : row' = row
  · subst hrow
    obtain rfl : policy' = policy := by
      rw [hget] at hget'
      exact (Option.some.inj hget').symm
    have hold := h row' policy' hget' r
    have hlt := committedLimits_lt hfunded policy'.tenantId r
    have hlimit := (lease.limits r).toNat_lt
    have howner : books.owner lease = policy'.tenantId := hten.symm
    rw [addTotals, Function.update_self, toNat_add_limit (by omega), hold,
      if_pos howner]
    rfl
  · have hne : ¬ books.owner lease = policy'.tenantId := by
      intro heq
      apply hrow
      have hacc : policy'.tenantId = policy.tenantId := heq.symm.trans hten.symm
      have hlt := (List.getElem?_eq_some_iff.mp hget').1
      have hidx : (policies.map Policy.tenantId)[row']? =
          (policies.map Policy.tenantId)[row]? := by
        simp [hget, hget', hacc]
      exact (getElem?_inj (by simpa using hlt) hfunded.caps_nodup).mp hidx
    rw [addTotals, Function.update_of_ne hrow, if_neg hne, add_zero]
    exact h row' policy' hget' r

/-- A lease list that passes the snapshot check is funded by the policies. -/
theorem leaseEntriesValid_funded {nowUnixMs : UInt64} {previous : List Lease} {totals : Totals}
    (hfunded : Ledger.Funded books policies previous)
    (htotals : TotalsExact policies totals previous)
    (h : leaseEntriesValid policies nowUnixMs previous totals leases = true) :
    Ledger.Funded books policies (previous ++ leases) := by
  induction leases generalizing previous totals with
  | nil => simpa using hfunded
  | cons lease rest ih =>
    unfold leaseEntriesValid at h
    split_ifs at h with hvalid hdup
    cases hfind : allocatorInputPolicyFind policies lease.tenantId with
    | none => simp [hfind] at h
    | some e =>
      obtain ⟨row, policy⟩ := e
      rw [hfind] at h
      dsimp only at h
      split_ifs at h with hover
      obtain ⟨hget, hten⟩ := allocatorInputPolicyFind_some hfind
      have hexact := htotals.snoc hfunded hget hten
      have hfresh : ∀ old ∈ previous, books.key old ≠ books.key lease := by
        intro old hold heq
        simp only [books, Prod.mk.injEq] at heq
        apply hdup
        rw [any_eq_true]
        exact ⟨old, hold, by simp [heq.1, heq.2]⟩
      have hroom : ∀ r, committed books previous (books.owner lease) r +
            books.amount lease r ≤ books.cap policy r := by
        intro r
        have howner : books.owner lease = policy.tenantId := hten.symm
        have hle := UInt64.le_iff_toNat_le.mp (any_gt_eq_false hover r)
        rw [hexact row policy hget r, UInt32.toNat_toUInt64, committedLimits,
          committed_append, committed_cons,
          committed_nil, add_zero, if_pos howner] at hle
        rw [howner]
        exact hle
      have hput := hfunded.putClaim
        (by simp : previous.Perm ((none : Option Lease).toList ++ previous))
        (by simp) (fun _ => hfresh) (mem_of_getElem? hget) hten hroom
      have hsnoc : Ledger.Funded books policies (previous ++ [lease]) :=
        hput.perm (List.Perm.refl _) (perm_append_singleton lease previous).symm
      rw [append_cons]
      exact ih hsnoc hexact h

theorem snapshot_funded {epoch sequence nowUnixMs : UInt64} {policies : Option (List Policy)}
    {leases : Option (List Lease)} {out : Allocator × AllocatorResult} (h : Funded a)
    (hout : SnapshotOutcome a epoch sequence nowUnixMs policies leases out) : Funded out.1 := by
  cases hout with
  | refused _ | stale | asked _ _ => exact h
  | @applied policies leases _ _ _ hpolicies _ _ hleases =>
    have hbase : Ledger.Funded books policies [] :=
      ⟨(policyEntriesValid_spec hpolicies).1, by simp, by simp,
        fun _ _ _ => Nat.zero_le _⟩
    have hzero : TotalsExact policies (fun _ _ => 0) [] :=
      fun _ _ _ _ => rfl
    have hall := leaseEntriesValid_funded hbase hzero hleases
    simpa [Funded] using hall

section Steps

variable {a : Allocator}

theorem prune_reduceOption (nowUnixMs : UInt64) :
    (allocatorPruneExpired a nowUnixMs).leases.reduceOption =
      a.leases.reduceOption.filter (unexpired nowUnixMs) :=
  reduceOption_map_filter _ _

theorem prune_funded (h : Funded a) (nowUnixMs : UInt64) :
    Funded (allocatorPruneExpired a nowUnixMs) := by
  unfold Funded
  rw [prune_reduceOption]
  exact h.forget filter_sublist.subperm

theorem write_funded {b : Allocator} {nowUnixMs : UInt64} (h : Funded a)
    (hwrite : Write nowUnixMs a b) : Funded b := by
  cases hwrite with
  | @policy index old policy hget hold hnew hroom =>
    refine (h.setCap (perm_expose hget) hold hnew ?_).perm
      (perm_set hget (some policy)).symm (List.Perm.refl _)
    intro r
    have hle := UInt64.le_iff_toNat_le.mp (hroom r)
    rw [commitments_toNat h, UInt32.toNat_toUInt64] at hle
    exact hle
  | @lease index row old lease policy hget hold hnew _ hpolicy hroom =>
    obtain ⟨hrow, hkey⟩ := findOccupied_some hpolicy
    have hten : policy.tenantId = lease.tenantId := by simpa using hkey
    refine (h.putClaim (perm_expose hget) ?_ ?_
      (mem_of_getElem? hrow) hten ?_).perm
      (List.Perm.refl _) (perm_set hget (some lease)).symm
    · intro d hd
      exact Prod.ext (hold d hd).1 (hold d hd).2
    · intro hnone d hd heq
      exact hnew hnone d hd (Prod.mk.inj heq)
    · intro r
      have hsum : (allocatorCommitmentsForTenant a lease.tenantId
          (old.map (fun _ => index)) r).toNat =
            committedLimits (a.leases.set index none).reduceOption
              lease.tenantId r := by
        cases old with
        | some d => exact commitments_exclude_toNat h hget lease.tenantId r
        | none =>
          rw [set_getElem? hget]
          exact commitments_toNat h lease.tenantId r
      have hle := UInt64.le_iff_toNat_le.mp (hroom r)
      have hlt := committedLimits_lt (h.forget (set_none_subperm hget)) lease.tenantId r
      have hlimit := (lease.limits r).toNat_lt
      rw [toNat_add_limit (by omega), hsum, UInt32.toNat_toUInt64] at hle
      exact hle
  | drop hget => exact h.forget (set_none_subperm hget)

theorem update_funded {epoch sequence nowUnixMs : UInt64} {q : Allocator × AllocatorResult}
    (h : Funded a) (hout : UpdateOutcome a epoch sequence nowUnixMs q) : Funded q.1 := by
  cases hout with
  | refused | unknown _ | stale _ | gap _ _ => exact h
  | rejected _ _ => exact prune_funded h nowUnixMs
  | applied _ _ _ hwrite =>
    have hb := write_funded (prune_funded h nowUnixMs) hwrite
    exact hb

theorem machine_funded (h : Funded a) (op : Op) : Funded (machine.next a op) := by
  have hcall := ControlPlaneRuns.call_outcome a op
  generalize machine.next a op = b, machine.answer a op = answer at hcall
  cases hcall with
  | snapshot hop hout => exact snapshot_funded h hout
  | update _ _ hout => exact update_funded h hout
  | query hb _ =>
    rcases hb with rfl | rfl
    · exact h
    · exact prune_funded h _

theorem run_funded (h : Funded a) (ops : List Op) : Funded (machine.run a ops) :=
  machine.run_invariant (P := Funded) (fun _ op h => machine_funded h op) h ops

theorem create_funded {maxTenants maxIssuedLeases : ℕ}
    (h : create maxTenants maxIssuedLeases = some a) : Funded a := by
  unfold create at h
  split_ifs at h
  simp only [Option.some.injEq] at h
  rw [← h]
  simpa [Funded, reduceOption_replicate_none] using Ledger.Funded.empty

theorem commitment_none (h : Funded a) {tenantId : CStr} {nowUnixMs : UInt64}
    (hnone : (commitment a tenantId nowUnixMs).2 = none) :
    tenantIdValid tenantId = false ∨ a.synchronized = false ∨
      allocatorFindPolicy a tenantId = none := by
  unfold commitment at hnone
  split_ifs at hnone with harg
  · simp only [Bool.or_eq_true, Bool.not_eq_true'] at harg
    rcases harg with harg | harg
    · exact Or.inl harg
    · exact Or.inr (Or.inl harg)
  · dsimp only at hnone
    cases hfind : allocatorFindPolicy (allocatorPruneExpired a nowUnixMs) tenantId with
    | none => exact Or.inr (Or.inr hfind)
    | some e =>
      rw [hfind] at hnone
      split_ifs at hnone with hover
      exfalso
      simp only [gt_iff_lt, any_eq_true, decide_eq_true_eq] at hover
      obtain ⟨r, _, hgt⟩ := hover
      have hp := prune_funded h nowUnixMs
      have hlt := committedLimits_lt hp tenantId r
      rw [UInt64.lt_iff_toNat_lt, commitments_toNat hp] at hgt
      have hmax : (UInt64.ofNat (2 ^ 32 - 1)).toNat = 2 ^ 32 - 1 := rfl
      omega

end Steps

/-- **The allocator never over-issues.**  In every state reached from a created
allocator, by any calls with any arguments and clock values: policies have
distinct tenants, leases distinct tenant and node, every lease's tenant has a
policy, and for each tenant and resource the exact sum of the lease limits is
at most the policy limit.  Hence `commitment` fails only in its first checks
and never because a sum exceeds `UINT32_MAX`. -/
theorem allocator_never_overissues {maxTenants maxIssuedLeases : ℕ} {a₀ : Allocator}
    (hcreate : create maxTenants maxIssuedLeases = some a₀) (ops : List Op) :
    ((machine.run a₀ ops).policies.reduceOption.map Policy.tenantId).Nodup ∧
    ((machine.run a₀ ops).leases.reduceOption.map
      (fun lease => (lease.tenantId, lease.nodeId))).Nodup ∧
    (∀ lease ∈ (machine.run a₀ ops).leases.reduceOption,
      ∃ policy ∈ (machine.run a₀ ops).policies.reduceOption, policy.tenantId = lease.tenantId) ∧
    (∀ policy ∈ (machine.run a₀ ops).policies.reduceOption, ∀ r,
      (((machine.run a₀ ops).leases.reduceOption.filter
        (fun lease => lease.tenantId = policy.tenantId)).map
          (fun lease => (lease.limits r).toNat)).sum ≤ (policy.limits r).toNat) ∧
    ∀ tenantId nowUnixMs, (commitment (machine.run a₀ ops) tenantId nowUnixMs).2 = none →
        tenantIdValid tenantId = false ∨ (machine.run a₀ ops).synchronized = false ∨
          allocatorFindPolicy (machine.run a₀ ops) tenantId = none := by
  have h := run_funded (create_funded hcreate) ops
  exact ⟨h.caps_nodup, h.claims_nodup, h.owned, h.covered,
    fun _ _ hnone => commitment_none h hnone⟩

/-- Two nodes ask for six of ten rooms each; the second grant is refused. -/
def twoNodeRun : List Op :=
  [.applySnapshot 1 1 (some [⟨[116], fun _ => 10⟩]) (some []) 0 ⟨true, true⟩,
    .grant 1 2 (some ⟨[116], [97], 100, fun _ => 6⟩) 0,
    .grant 1 3 (some ⟨[116], [98], 100, fun _ => 6⟩) 0]

theorem allocator_never_overissues_twoNodeRun :
    ∃ a₀, create 1 2 = some a₀ ∧ (machine.run a₀ twoNodeRun).leases.reduceOption.length = 1 ∧
      (((machine.run a₀ twoNodeRun).leases.reduceOption.filter
        (fun lease => lease.tenantId = [116])).map
          (fun lease => (lease.limits .rooms).toNat)).sum ≤ 10 := by
  refine ⟨_, rfl, by decide, ?_⟩
  exact (allocator_never_overissues (by rfl : create 1 2 = some _)
    twoNodeRun).2.2.2.1 ⟨[116], fun _ => 10⟩ (by decide) .rooms

end TurboMedia.TenantQuotaAllocator
