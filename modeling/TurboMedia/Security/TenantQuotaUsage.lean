import TurboMedia.Security.TenantQuota

/-!
# Conservation of usage in the quota projection

Usage is counted in two ways.  The projection counts it slot by slot; a run
counts it call by call, adding every reservation that answered OK and
subtracting every release that returned 0.  The two agree after every run.

The bridge is `heldUsage`, the sum of `used` over all slots of a tenant, which
does not depend on where the slots are.  One step lemma per operation says how
it changes; tenants of occupied slots stay distinct, so the sum is the value
the projection reports.
-/

namespace TurboMedia.TenantQuota

open List SlotTable Ledger Function

/-- Slots read as a ledger of usage charged to tenants. -/
def usageBooks : Ledger.Books Slot Slot CStr CStr Resource where
  account := Slot.tenantId
  cap slot r := (slot.limits r).toNat
  owner := Slot.tenantId
  key := Slot.tenantId
  amount slot r := (slot.used r).toNat

/-- Usage of a tenant summed over a list of slots. -/
def heldUsage (slots : List Slot) (tenantId : CStr) (r : Resource) : ℕ :=
  committed usageBooks slots tenantId r

/-- Occupied slots belong to distinct tenants. -/
def TenantsDistinct (p : Projection) : Prop :=
  (p.slots.reduceOption.map Slot.tenantId).Nodup

variable {slot : Slot}

theorem heldUsage_eq_used {slots : List Slot}
    (hnodup : (slots.map Slot.tenantId).Nodup) (h : slot ∈ slots) (r : Resource) :
    heldUsage slots slot.tenantId r = (slot.used r).toNat :=
  committed_eq_amount (B := usageBooks) hnodup h r

variable {tenantId : CStr}

theorem heldUsage_eq_zero {slots : List Slot}
    (h : ∀ slot ∈ slots, slot.tenantId ≠ tenantId) (r : Resource) :
    heldUsage slots tenantId r = 0 :=
  committed_eq_zero (B := usageBooks) h r

theorem heldUsage_append (xs ys : List Slot) (tenantId : CStr) (r : Resource) :
    heldUsage (xs ++ ys) tenantId r = heldUsage xs tenantId r + heldUsage ys tenantId r :=
  committed_append xs ys tenantId r

theorem heldUsage_cons (slot : Slot) (slots : List Slot) (tenantId : CStr) (r : Resource) :
    heldUsage (slot :: slots) tenantId r =
      (if slot.tenantId = tenantId then (slot.used r).toNat else 0) + heldUsage slots tenantId r :=
  committed_cons slot slots tenantId r

variable {i : ℕ}

/-- The usage held in a table is that of one slot plus that of the others. -/
theorem heldUsage_expose {slots : List (Option Slot)} {o : Option Slot}
    (h : slots[i]? = some o) (tenantId : CStr) (r : Resource) :
    heldUsage slots.reduceOption tenantId r = heldUsage o.toList tenantId r +
        heldUsage (slots.set i none).reduceOption tenantId r := by
  rw [heldUsage, committed_perm (perm_expose h)]
  exact heldUsage_append _ _ _ _

theorem heldUsage_set {slots : List (Option Slot)} {o : Option Slot}
    (h : slots[i]? = some o) (o' : Option Slot) (tenantId : CStr) (r : Resource) :
    heldUsage (slots.set i o').reduceOption tenantId r = heldUsage o'.toList tenantId r +
        heldUsage (slots.set i none).reduceOption tenantId r := by
  rw [heldUsage, committed_perm (perm_set h o')]
  exact heldUsage_append _ _ _ _

variable {p : Projection}

theorem quotaFindSlot_some (h : quotaFindSlot p tenantId = some (i, slot)) :
    p.slots[i]? = some (some slot) ∧ slot.tenantId = tenantId := by
  obtain ⟨hget, heq⟩ := findOccupied_some h
  exact ⟨hget, by simpa using heq⟩

theorem quotaFindSlot_none (h : quotaFindSlot p tenantId = none) :
    ∀ slot ∈ p.slots.reduceOption, slot.tenantId ≠ tenantId := by
  intro slot hslot
  simpa using findOccupied_none h slot hslot

/-- Usage in the slot that holds the tenant, 0 without one. -/
def slotUsage (p : Projection) (tenantId : CStr) (r : Resource) : ℕ :=
  match quotaFindSlot p tenantId with
  | some (_, slot) => (slot.used r).toNat
  | none => 0

theorem slotUsage_eq_heldUsage (hp : TenantsDistinct p) (tenantId : CStr) (r : Resource) :
    slotUsage p tenantId r = heldUsage p.slots.reduceOption tenantId r := by
  unfold slotUsage
  cases h : quotaFindSlot p tenantId with
  | none => rw [heldUsage_eq_zero (quotaFindSlot_none h)]
  | some e =>
    obtain ⟨i, slot⟩ := e
    obtain ⟨hget, rfl⟩ := quotaFindSlot_some h
    rw [heldUsage_eq_used hp (mem_of_getElem? hget)]

theorem used_eq_zero_of_not_present (h : quotaUsagePresent (some slot) = false)
    (r : Resource) : slot.used r = 0 := by
  simp only [quotaUsagePresent, any_eq_false, bne_iff_ne, ne_eq, not_not] at h
  exact h r r.mem_all

section Snapshot

theorem quotaSnapshotEntriesValid_spec {p : Projection} {previous leases : List Lease}
    (h : quotaSnapshotEntriesValid p previous leases = true) :
    (leases.map Lease.tenantId).Nodup ∧ (∀ lease ∈ leases, quotaLeaseValid p lease = true) ∧
      ∀ lease ∈ leases, ∀ old ∈ previous, old.tenantId ≠ lease.tenantId := by
  induction leases generalizing previous with
  | nil => simp
  | cons lease rest ih =>
    simp only [quotaSnapshotEntriesValid, Bool.and_eq_true, Bool.not_eq_true'] at h
    obtain ⟨⟨hvalid, hfresh⟩, hrest⟩ := h
    obtain ⟨hnodup, hall, hprev⟩ := ih hrest
    have hfresh' : ∀ old ∈ previous, old.tenantId ≠ lease.tenantId := by
      simpa [quotaSnapshotContains] using hfresh
    refine ⟨?_, ?_, ?_⟩
    · rw [map_cons, nodup_cons, mem_map]
      refine ⟨?_, hnodup⟩
      rintro ⟨other, hother, heq⟩
      exact hprev other hother lease (by simp) heq.symm
    · intro other hother
      rcases mem_cons.mp hother with rfl | hother
      · exact hvalid
      · exact hall other hother
    · intro other hother old hold
      rcases mem_cons.mp hother with rfl | hother
      · exact hfresh' old hold
      · exact hprev other hother old (mem_append_left _ hold)

variable {p : Projection} {leases : List Lease}

theorem retained_tenant_not_leased {slot : Slot}
    (h : slot ∈ (p.slots.reduceOption.filter (retainedSlot leases)).map tombstone) :
    ∀ lease ∈ leases, lease.tenantId ≠ slot.tenantId := by
  obtain ⟨old, hold, rfl⟩ := mem_map.mp h
  have hret := (mem_filter.mp hold).2
  simp only [retainedSlot, Bool.and_eq_true, Bool.not_eq_true'] at hret
  have hno := hret.2
  simpa [quotaSnapshotContains, tombstone] using hno

theorem replacementSlots_distinct (hp : TenantsDistinct p)
    (hleases : (leases.map Lease.tenantId).Nodup) :
    ((replacementSlots p leases).map Slot.tenantId).Nodup := by
  have htomb : ((p.slots.reduceOption.filter (retainedSlot leases)).map
      tombstone).map Slot.tenantId =
        (p.slots.reduceOption.filter (retainedSlot leases)).map Slot.tenantId := by
    simp [tombstone]
  have hlead : (leases.map (snapshotSlot p)).map Slot.tenantId =
      leases.map Lease.tenantId := by
    simp [snapshotSlot]
  rw [replacementSlots, map_append, nodup_append]
  refine ⟨?_, ?_, ?_⟩
  · rw [hlead]
    exact hleases
  · rw [htomb]
    exact (filter_sublist.map Slot.tenantId).nodup hp
  · intro x hx y hy hxy
    rw [hlead, mem_map] at hx
    obtain ⟨lease, hlease, rfl⟩ := hx
    obtain ⟨slot, hslot, rfl⟩ := mem_map.mp hy
    exact retained_tenant_not_leased hslot lease hlease hxy

theorem heldUsage_retained {tenantId : CStr} (hnone : ∀ lease ∈ leases, lease.tenantId ≠ tenantId)
    (slots : List Slot) (r : Resource) :
    heldUsage ((slots.filter (retainedSlot leases)).map tombstone) tenantId r =
      heldUsage slots tenantId r := by
  induction slots with
  | nil => rfl
  | cons slot slots ih =>
    rw [filter_cons, heldUsage_cons]
    cases hret : retainedSlot leases slot with
    | true =>
      rw [if_pos rfl, map_cons, heldUsage_cons, ih]
      rfl
    | false =>
      have hzero :
          (if slot.tenantId = tenantId then (slot.used r).toNat else 0) = 0 := by
        split_ifs with hten
        · have hno : quotaSnapshotContains leases slot.tenantId = false := by
            simpa [quotaSnapshotContains, hten] using hnone
          have huse : quotaUsagePresent (some slot) = false := by
            simpa [retainedSlot, hno] using hret
          rw [used_eq_zero_of_not_present huse]
          rfl
        · rfl
      rw [hzero, zero_add]
      simpa using ih

/-- A snapshot moves no usage: leased tenants keep theirs in the new slot, the
others in a tombstone. -/
theorem heldUsage_replacementSlots (hp : TenantsDistinct p)
    (hleases : (leases.map Lease.tenantId).Nodup) (tenantId : CStr) (r : Resource) :
    heldUsage (replacementSlots p leases) tenantId r =
      heldUsage p.slots.reduceOption tenantId r := by
  have hdist := replacementSlots_distinct hp hleases
  by_cases hin : ∃ lease ∈ leases, lease.tenantId = tenantId
  · obtain ⟨lease, hlease, rfl⟩ := hin
    have hmem : snapshotSlot p lease ∈ replacementSlots p leases :=
      mem_append_left _ (mem_map_of_mem hlease)
    have hheld := heldUsage_eq_used hdist hmem r
    rw [← slotUsage_eq_heldUsage hp]
    refine hheld.trans ?_
    unfold slotUsage snapshotSlot
    cases quotaFindSlot p lease.tenantId with
    | none => rfl
    | some e => rfl
  · have hnone : ∀ lease ∈ leases, lease.tenantId ≠ tenantId :=
      fun lease hlease heq => hin ⟨lease, hlease, heq⟩
    have hlead : heldUsage (leases.map (snapshotSlot p)) tenantId r = 0 := by
      apply heldUsage_eq_zero
      intro slot hslot
      obtain ⟨lease, hlease, rfl⟩ := mem_map.mp hslot
      exact hnone lease hlease
    rw [replacementSlots, heldUsage_append, hlead, zero_add]
    exact heldUsage_retained hnone p.slots.reduceOption r

end Snapshot

section Steps

variable {p : Projection}

theorem applySnapshot_usage (hp : TenantsDistinct p)
    (epoch sequence : UInt64) (leases : Option (List Lease)) (memory : Bool) :
    TenantsDistinct (applySnapshot p epoch sequence leases memory).1 ∧ ∀ t r,
        heldUsage (applySnapshot p epoch sequence leases memory).1.slots.reduceOption t r =
          heldUsage p.slots.reduceOption t r := by
  have hout := applySnapshot_outcome p epoch sequence leases memory
  generalize applySnapshot p epoch sequence leases memory = q at hout
  cases hout with
  | refused _ | stale | asked _ _ _ _ => exact ⟨hp, fun _ _ => rfl⟩
  | applied _ _ _ hvalid _ =>
    have hnodup := (quotaSnapshotEntriesValid_spec hvalid).1
    simp only [TenantsDistinct, reduceOption_fill]
    exact ⟨replacementSlots_distinct hp hnodup,
      fun t r => heldUsage_replacementSlots hp hnodup t r⟩

theorem updateTarget_spec {tenantId : CStr} {index : ℕ} {content : Option Slot}
    (hp : TenantsDistinct p) (h : updateTarget p tenantId = some (index, content)) :
    p.slots[index]? = some content ∧
      (∀ slot ∈ (p.slots.set index none).reduceOption, slot.tenantId ≠ tenantId) ∧
      ∀ slot ∈ content, slot.tenantId ≠ tenantId → ∀ r, slot.used r = 0 := by
  unfold updateTarget at h
  cases hfind : quotaFindSlot p tenantId with
  | some e =>
    obtain ⟨i, slot⟩ := e
    rw [hfind] at h
    simp only [Option.some.injEq, Prod.mk.injEq] at h
    obtain ⟨rfl, rfl⟩ := h
    obtain ⟨hget, rfl⟩ := quotaFindSlot_some hfind
    refine ⟨hget, map_ne_of_occupied hp hget, ?_⟩
    intro slot' hslot' hne
    simp only [Option.mem_def, Option.some.injEq] at hslot'
    exact absurd (by rw [hslot']) hne
  | none =>
    rw [hfind] at h
    simp only [Option.map_eq_some_iff, Prod.mk.injEq] at h
    obtain ⟨i, hi, rfl, rfl⟩ := h
    obtain ⟨o, hget, hreuse⟩ := findIdx?_getElem? hi
    have hnone := quotaFindSlot_none hfind
    rw [hget]
    refine ⟨rfl, ?_, ?_⟩
    · intro slot hslot
      exact hnone slot ((set_none_subperm hget).subset hslot)
    · intro slot hslot _ r
      simp only [Option.join_some] at hslot
      rw [Option.mem_def.mp hslot] at hreuse
      simp only [reusableSlot, Bool.and_eq_true, Bool.not_eq_true'] at hreuse
      exact used_eq_zero_of_not_present hreuse.2 r

/-- Taking over a reusable slot or rewriting the tenant's own moves no usage. -/
theorem heldUsage_updatedSlot {lease : Lease} {content : Option Slot}
    (hzero : ∀ slot ∈ content, slot.tenantId ≠ lease.tenantId → ∀ r, slot.used r = 0)
    (t : CStr) (r : Resource) :
    heldUsage [updatedSlot lease content] t r = heldUsage content.toList t r := by
  cases content with
  | none => simp [heldUsage_cons, updatedSlot]
  | some slot =>
    rw [Option.toList_some, heldUsage_cons, heldUsage_cons]
    by_cases hten : slot.tenantId = lease.tenantId
    · simp [updatedSlot, hten]
    · have hused := hzero slot rfl hten r
      simp [updatedSlot, hten, hused]

theorem applyUpdate_usage (hp : TenantsDistinct p)
    (epoch sequence : UInt64) (lease : Option Lease) :
    TenantsDistinct (applyUpdate p epoch sequence lease).1 ∧ ∀ t r,
        heldUsage (applyUpdate p epoch sequence lease).1.slots.reduceOption t r =
          heldUsage p.slots.reduceOption t r := by
  have hout := applyUpdate_outcome p epoch sequence lease
  generalize applyUpdate p epoch sequence lease = q at hout
  cases hout with
  | refused _ | stale | asked _ _ _ _ _ => exact ⟨hp, fun _ _ => rfl⟩
  | @applied lease index content _ _ htarget =>
    obtain ⟨hget, hothers, hzero⟩ := updateTarget_spec hp htarget
    have htenant : (updatedSlot lease content).tenantId = lease.tenantId := by
      cases content <;> rfl
    refine ⟨?_, ?_⟩
    · apply nodup_map_set hp hget
      rw [htenant]
      exact hothers
    · intro t r
      rw [heldUsage_set hget, heldUsage_expose hget, Option.toList_some,
        heldUsage_updatedSlot hzero]

theorem heldUsage_rewrite {tenantId : CStr} {index : ℕ} {slot : Slot}
    (hfind : quotaFindSlot p tenantId = some (index, slot)) (used : Limits)
    (t : CStr) (r : Resource) :
    heldUsage (p.slots.set index (some { slot with used := used })).reduceOption t r +
        (if tenantId = t then (slot.used r).toNat else 0) =
      heldUsage p.slots.reduceOption t r +
        (if tenantId = t then (used r).toNat else 0) := by
  obtain ⟨hget, rfl⟩ := quotaFindSlot_some hfind
  rw [heldUsage_set hget, heldUsage_expose hget, Option.toList_some,
    Option.toList_some, heldUsage_cons, heldUsage_cons]
  simp only [heldUsage, committed_nil]
  omega

theorem distinct_rewrite {tenantId : CStr} {index : ℕ} {slot : Slot} (hp : TenantsDistinct p)
    (hfind : quotaFindSlot p tenantId = some (index, slot)) (used : Limits) :
    ((p.slots.set index (some { slot with used := used })).reduceOption.map
      Slot.tenantId).Nodup := by
  obtain ⟨hget, rfl⟩ := quotaFindSlot_some hfind
  have hothers := map_ne_of_occupied hp hget
  exact nodup_map_set hp hget hothers

/-- Amount that a reservation adds to the usage of `(t, r)`. -/
def reservedAmount (tenantId : CStr) (resource : Option Resource) (amount : UInt32)
    (result : ReserveResult) (t : CStr) (r : Resource) : ℕ :=
  if result = .ok ∧ tenantId = t ∧ resource = some r then amount.toNat else 0

/-- Amount that a release takes from the usage of `(t, r)`. -/
def releasedAmount (tenantId : CStr) (resource : Option Resource) (amount : UInt32)
    (code : Int) (t : CStr) (r : Resource) : ℕ :=
  if code = 0 ∧ tenantId = t ∧ resource = some r then amount.toNat else 0

theorem reserve_usage (hp : TenantsDistinct p) (tenantId : CStr) (resource : Option Resource)
    (amount : UInt32) (nowUnixMs : UInt64) :
    TenantsDistinct (reserve p tenantId resource amount nowUnixMs).1 ∧ ∀ t r,
        heldUsage (reserve p tenantId resource amount nowUnixMs).1.slots.reduceOption t r =
          heldUsage p.slots.reduceOption t r + reservedAmount tenantId resource amount
              (reserve p tenantId resource amount nowUnixMs).2 t r := by
  have hout := reserve_outcome p tenantId resource amount nowUnixMs
  generalize reserve p tenantId resource amount nowUnixMs = q at hout
  cases hout with
  | denied hno _ => exact ⟨hp, fun t r => by simp [reservedAmount, hno]⟩
  | @ok resource index slot _ _ hfind _ hroom =>
    refine ⟨distinct_rewrite hp hfind _, ?_⟩
    intro t r
    have hrew := heldUsage_rewrite hfind
      (update slot.used resource (slot.used resource + amount)) t r
    have hsum : (slot.used resource + amount).toNat =
        (slot.used resource).toNat + amount.toNat := by
      have hlimit := (slot.limits resource).toNat_lt
      rw [UInt32.toNat_add, Nat.mod_eq_of_lt (by omega)]
    by_cases hten : tenantId = t
    · by_cases hres : resource = r
      · subst hres
        simp only [hten, if_true, update_self, hsum] at hrew
        simp only [reservedAmount, hten, and_self, if_true]
        omega
      · rw [update_of_ne (Ne.symm hres)] at hrew
        simp only [reservedAmount, Option.some.injEq, hres, and_false, if_false]
        omega
    · simp only [hten, if_false, add_zero] at hrew
      simp [reservedAmount, hten, hrew]

theorem release_usage (hp : TenantsDistinct p)
    (tenantId : CStr) (resource : Option Resource) (amount : UInt32) :
    TenantsDistinct (release p tenantId resource amount).1 ∧ ∀ t r,
        heldUsage (release p tenantId resource amount).1.slots.reduceOption t r +
            releasedAmount tenantId resource amount (release p tenantId resource amount).2 t r =
          heldUsage p.slots.reduceOption t r := by
  have hout := release_outcome p tenantId resource amount
  generalize release p tenantId resource amount = q at hout
  cases hout with
  | denied => exact ⟨hp, fun t r => by simp [releasedAmount]⟩
  | @ok resource index slot content _ hfind hle hbody =>
    have hsub := UInt32.toNat_sub_of_le _ _ hle
    have hle' := UInt32.le_iff_toNat_le.mp hle
    obtain ⟨hget, hten⟩ := quotaFindSlot_some hfind
    have hrewrite : ∀ t r,
        heldUsage (p.slots.set index (some { slot with
            used := update slot.used resource
              (slot.used resource - amount) })).reduceOption t r +
            releasedAmount tenantId (some resource) amount 0 t r =
          heldUsage p.slots.reduceOption t r := by
      intro t r
      have hrew := heldUsage_rewrite hfind
        (update slot.used resource (slot.used resource - amount)) t r
      by_cases hten : tenantId = t
      · by_cases hres : resource = r
        · subst hres
          simp only [hten, if_true, update_self, hsub] at hrew
          simp only [releasedAmount, hten, and_self, if_true]
          omega
        · rw [update_of_ne (Ne.symm hres)] at hrew
          simp only [releasedAmount, Option.some.injEq, hres, and_false, if_false]
          omega
      · simp only [hten, if_false, add_zero] at hrew
        simp [releasedAmount, hten, hrew]
    rcases hbody with rfl | ⟨rfl, hempty⟩
    · exact ⟨distinct_rewrite hp hfind _, hrewrite⟩
    · refine ⟨nodup_map_clear hp hget, ?_⟩
      intro t r
      rw [← hrewrite t r, heldUsage_set hget (some _), Option.toList_some,
        heldUsage_cons, used_eq_zero_of_not_present hempty r]
      simp [heldUsage]

end Steps

def reservedBy (t : CStr) (r : Resource) : Op → Answer → ℕ
  | .reserve tenantId resource amount _, .reserve result =>
    reservedAmount tenantId resource amount result t r
  | _, _ => 0

def releasedBy (t : CStr) (r : Resource) : Op → Answer → ℕ
  | .release tenantId resource amount, .release code =>
    releasedAmount tenantId resource amount code t r
  | _, _ => 0

/-- Sum of the amounts of the reservations that answered OK. -/
def reservedTotal (t : CStr) (r : Resource) : Projection → List Op → ℕ
  | _, [] => 0
  | p, op :: ops =>
    reservedBy t r op (machine.answer p op) + reservedTotal t r (machine.next p op) ops

/-- Sum of the amounts of the releases that returned 0. -/
def releasedTotal (t : CStr) (r : Resource) : Projection → List Op → ℕ
  | _, [] => 0
  | p, op :: ops =>
    releasedBy t r op (machine.answer p op) + releasedTotal t r (machine.next p op) ops

theorem machine_usage (hp : TenantsDistinct p) (op : Op) :
    TenantsDistinct (machine.next p op) ∧ ∀ t r,
        heldUsage (machine.next p op).slots.reduceOption t r +
            releasedBy t r op (machine.answer p op) = heldUsage p.slots.reduceOption t r +
            reservedBy t r op (machine.answer p op) := by
  cases op with
  | applySnapshot epoch sequence leases memory =>
    exact applySnapshot_usage hp epoch sequence leases memory
  | applyUpdate epoch sequence lease => exact applyUpdate_usage hp epoch sequence lease
  | reserve tenantId resource amount nowUnixMs =>
    exact reserve_usage hp tenantId resource amount nowUnixMs
  | release tenantId resource amount => exact release_usage hp tenantId resource amount

theorem run_usage (hp : TenantsDistinct p) (ops : List Op) (t : CStr) (r : Resource) :
    heldUsage (machine.run p ops).slots.reduceOption t r + releasedTotal t r p ops =
      heldUsage p.slots.reduceOption t r + reservedTotal t r p ops := by
  induction ops generalizing p with
  | nil => rfl
  | cons op ops ih =>
    obtain ⟨hnext, hstep⟩ := machine_usage hp op
    have hrest := ih hnext
    have hone := hstep t r
    simp only [Machine.run_cons, reservedTotal, releasedTotal]
    omega

theorem run_distinct (hp : TenantsDistinct p) (ops : List Op) :
    TenantsDistinct (machine.run p ops) :=
  machine.run_invariant (P := TenantsDistinct) (fun _ op h => (machine_usage h op).1) hp ops

variable {t : CStr}

theorem reservedBy_invalid (ht : tenantIdValid t = false)
    (r : Resource) (p : Projection) (op : Op) : reservedBy t r op (machine.answer p op) = 0 := by
  cases op with
  | reserve tenantId resource amount now =>
    have hout := reserve_outcome p tenantId resource amount now
    change reservedAmount tenantId resource amount
      (reserve p tenantId resource amount now).2 t r = 0
    generalize reserve p tenantId resource amount now = q at hout
    unfold reservedAmount
    cases hout with
    | denied hno _ => rw [if_neg (fun h => hno h.1)]
    | ok hid _ _ _ _ => rw [if_neg (fun h => by simp [h.2.1, ht] at hid)]
  | applySnapshot _ _ _ _ | applyUpdate _ _ _ | release _ _ _ => rfl

theorem releasedBy_invalid (ht : tenantIdValid t = false)
    (r : Resource) (p : Projection) (op : Op) : releasedBy t r op (machine.answer p op) = 0 := by
  cases op with
  | release tenantId resource amount =>
    have hout := release_outcome p tenantId resource amount
    change releasedAmount tenantId resource amount (release p tenantId resource amount).2 t r = 0
    generalize release p tenantId resource amount = q at hout
    unfold releasedAmount
    cases hout with
    | denied => rw [if_neg (fun h => by simp at h)]
    | ok hid _ _ _ => rw [if_neg (fun h => by simp [h.2.1, ht] at hid)]
  | applySnapshot _ _ _ _ | applyUpdate _ _ _ | reserve _ _ _ _ => rfl

theorem totals_invalid (ht : tenantIdValid t = false)
    (r : Resource) (p : Projection) (ops : List Op) :
    reservedTotal t r p ops = 0 ∧ releasedTotal t r p ops = 0 := by
  induction ops generalizing p with
  | nil => exact ⟨rfl, rfl⟩
  | cons op ops ih =>
    obtain ⟨h₁, h₂⟩ := ih (machine.next p op)
    simp [reservedTotal, releasedTotal, reservedBy_invalid ht, releasedBy_invalid ht, h₁, h₂]

/-- `used` as reported by `turbo_media_tenant_quota_usage`, 0 when it fails. -/
def reportedUsed (p : Projection) (t : CStr) (r : Resource) : ℕ :=
  match usage p t (some r) with
  | some report => report.used.toNat
  | none => 0

theorem reportedUsed_eq (p : Projection) (t : CStr) (r : Resource) :
    reportedUsed p t r = if tenantIdValid t then slotUsage p t r else 0 := by
  unfold reportedUsed usage slotUsage
  cases tenantIdValid t with
  | false => rfl
  | true =>
    cases quotaFindSlot p t with
    | none => rfl
    | some e => rfl

theorem projectionCreate_slots {nodeId : CStr} {maxTenants : ℕ}
    (h : projectionCreate nodeId maxTenants = some p) : p.slots.reduceOption = [] := by
  unfold projectionCreate at h
  split_ifs at h
  simp only [Option.some.injEq] at h
  rw [← h]
  exact reduceOption_replicate_none

/-- A reservation that answers OK leaves the usage within the lease held. -/
theorem reserve_within_lease {p' : Projection} {r : Resource} {amount : UInt32} {now : UInt64}
    (hp : TenantsDistinct p) (h : reserve p t (some r) amount now = (p', .ok)) :
    ∃ index slot, quotaFindSlot p' t = some (index, slot) ∧ slot.hasLease = true ∧
        slot.used r ≤ slot.limits r := by
  have hout := reserve_outcome p t (some r) amount now
  have hp' := (reserve_usage hp t (some r) amount now).1
  rw [h] at hout hp'
  generalize hq : (p', ReserveResult.ok) = q at hout
  cases hout with
  | denied hno _ =>
    simp only [Prod.mk.injEq] at hq
    exact absurd hq.2.symm hno
  | @ok _ index slot _ _ hfind hlease hroom =>
    simp only [Prod.mk.injEq, and_true] at hq
    subst hq
    obtain ⟨hget, hten⟩ := quotaFindSlot_some hfind
    have hlt : index < p.slots.length :=
      (List.getElem?_eq_some_iff.mp hget).1
    have hwritten := SlotTable.mem_of_getElem? (getElem?_set_self (a := some
        { slot with used := update slot.used r (slot.used r + amount) }) hlt)
    obtain ⟨⟨i, found⟩, hfound⟩ :=
      SlotTable.findOccupied_isSome (p := fun slot => slot.tenantId == t)
        hwritten (by simp [hten])
    obtain ⟨hgetf, htenf⟩ := SlotTable.findOccupied_some hfound
    have heq := inj_on_of_nodup_map hp' (SlotTable.mem_of_getElem? hgetf) hwritten
      ((by simpa using htenf : found.tenantId = t).trans hten.symm)
    refine ⟨i, found, hfound, ?_, ?_⟩
    · rw [heq]
      exact hlease
    · rw [heq, UInt32.le_iff_toNat_le]
      simp only [update_self, UInt32.toNat_add]
      exact le_trans (Nat.mod_le _ _) hroom

/-- **Conservation of usage.**  After every run from a created projection the
usage reported for a tenant and resource is what was reserved minus what was
released; occupied slots keep distinct tenants, and a reservation that answers
OK leaves the usage within the lease held. -/
theorem usage_conserved {nodeId : CStr} {maxTenants : ℕ} {p₀ : Projection}
    (hcreate : projectionCreate nodeId maxTenants = some p₀) (ops : List Op) :
    (∀ t r, (reportedUsed (machine.run p₀ ops) t r : ℤ) =
        reservedTotal t r p₀ ops - releasedTotal t r p₀ ops) ∧
    TenantsDistinct (machine.run p₀ ops) ∧ ∀ t r amount now p',
      reserve (machine.run p₀ ops) t (some r) amount now = (p', .ok) → ∃ index slot,
          quotaFindSlot p' t = some (index, slot) ∧ slot.hasLease = true ∧
            slot.used r ≤ slot.limits r := by
  have hempty := projectionCreate_slots hcreate
  have hp₀ : TenantsDistinct p₀ := by
    simp [TenantsDistinct, hempty]
  have hdistinct := run_distinct hp₀ ops
  refine ⟨?_, hdistinct, ?_⟩
  · intro t r
    have hrun := run_usage hp₀ ops t r
    have hzero : heldUsage p₀.slots.reduceOption t r = 0 := by
      rw [hempty]
      rfl
    rw [reportedUsed_eq]
    split_ifs with ht
    · rw [slotUsage_eq_heldUsage hdistinct]
      omega
    · obtain ⟨hres, hrel⟩ := totals_invalid (by simpa using ht) r p₀ ops
      simp [hres, hrel]
  · intro t r amount now p' hres
    exact reserve_within_lease hdistinct hres

/-- A lease, a reservation, a partial release, and the loss of the lease. -/
def drainedLeaseRun : List Op :=
  [.applySnapshot 1 1 (some [⟨[116], [110], 100, fun _ => 10⟩]) true,
    .reserve [116] (some .rooms) 5 0,
    .release [116] (some .rooms) 2,
    .applySnapshot 1 2 (some []) true]

theorem usage_conserved_drainedLeaseRun :
    ∃ p₀, projectionCreate [110] 1 = some p₀ ∧
      (reportedUsed (machine.run p₀ drainedLeaseRun) [116] .rooms : ℤ) = 5 - 2 := by
  refine ⟨_, rfl, ?_⟩
  have h := (usage_conserved (by rfl : projectionCreate [110] 1 = some _)
    drainedLeaseRun).1 [116] .rooms
  rw [h]
  decide

end TurboMedia.TenantQuota
