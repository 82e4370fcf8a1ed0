import TurboMedia.Security.TenantQuotaAllocator
import TurboMedia.Auth.Revocation

/-!
# The three control-plane views never regress and fail closed

The quota allocator, the quota projection and the revocation state are near
copies of one versioned machine.  Here each of them is read as a
`VersionedMachine` and shown to track the abstract watermark, one case for each
outcome of its calls.
-/

namespace TurboMedia.ControlPlaneRuns

open Machine

universe u v w

variable {σ : Type u} {ι : Type v} {ρ : Type w}

/-- Whole-run discipline of a versioned view that starts in `s₀`. -/
structure Disciplined (M : VersionedMachine σ ι ρ Version) (Stale : ρ → Prop) (Refuses : σ → Prop)
    (s₀ : σ) : Prop where
  applied_increases :
    ∀ ops op, M.applied op (M.answer (M.run s₀ ops) op) = true →
        (M.view (M.run s₀ ops)).current < (M.view (M.run s₀ (ops ++ [op]))).current
  stale_unchanged :
    ∀ ops op, Stale (M.answer (M.run s₀ ops) op) → M.run s₀ (ops ++ [op]) = M.run s₀ ops
  recovers :
    ∀ ops fault mid last, (M.view (M.run s₀ ops)).synchronized = true →
      (M.view (M.run s₀ (ops ++ [fault]))).synchronized = false →
      M.NoneApplied (M.run s₀ ops) (fault :: mid) →
      M.applied last (M.answer (M.run s₀ (ops ++ fault :: mid)) last) = true →
        M.isSnapshot last = true ∧
          ∀ pre op post, fault :: mid = pre ++ op :: post → M.AtFault (M.run s₀ (ops ++ pre)) op →
              M.stamp op ≤ M.stamp last
  refuses :
    ∀ ops fault mid, (M.view (M.run s₀ ops)).synchronized = true →
      (M.view (M.run s₀ (ops ++ [fault]))).synchronized = false →
      M.NoneApplied (M.run s₀ ops) (fault :: mid) → Refuses (M.run s₀ (ops ++ fault :: mid))

theorem disciplined_of_tracks {M : VersionedMachine σ ι ρ Version}
    {Stale : ρ → Prop} {Refuses : σ → Prop} {s₀ : σ} (hM : M.Tracks) (hs₀ : (M.view s₀).WellFormed)
    (hstale : ∀ s op, Stale (M.answer s op) → M.next s op = s)
    (hrefuses : ∀ s, (M.view s).synchronized = false → Refuses s) :
    Disciplined M Stale Refuses s₀ where
  applied_increases ops op happ := by
    rw [M.run_append]
    exact hM.applied_lt (hM.wellFormed_run hs₀ ops) happ
  stale_unchanged ops op h := by
    rw [M.run_append]
    exact hstale _ _ h
  recovers ops fault mid last hsync hclear hnone hlast := by
    rw [M.run_append] at hclear hlast
    obtain ⟨hsnap, hcov⟩ := hM.recovery ⟨hsync, hclear⟩ hnone hlast
    refine ⟨hsnap, ?_⟩
    intro pre op post hsplit hfault
    rw [M.run_append] at hfault
    exact hcov pre op post hsplit hfault
  refuses ops fault mid hsync hclear hnone := by
    rw [M.run_append] at hclear ⊢
    exact hrefuses _ (hM.unsynchronized_run hclear hnone.2).1

section Projection

open TenantQuota

/-- The quota projection as a versioned machine.  An ERROR asks for a snapshot
when the version arguments passed the first check. -/
def projectionMachine : VersionedMachine Projection Op Answer Version where
  toMachine := machine
  view p := p.toCursor.view
  stamp
    | .applySnapshot epoch sequence _ _ => Version.of epoch sequence
    | .applyUpdate epoch sequence _ => Version.of epoch sequence
    | .reserve _ _ _ _ => ⊥
    | .release _ _ _ => ⊥
  isSnapshot
    | .applySnapshot _ _ _ _ => true
    | _ => false
  applied
    | _, .apply .applied => true
    | _, _ => false
  asks
    | _, .apply .gap => true
    | _, .apply .limit => true
    | .applySnapshot epoch _ _ _, .apply .error => epoch != 0
    | .applyUpdate epoch sequence _, .apply .error => epoch != 0 && sequence != 0
    | _, _ => false

theorem projectionMachine_tracks : projectionMachine.Tracks := by
  intro p op
  cases op with
  | applySnapshot epoch sequence leases memory =>
    have h := applySnapshot_outcome p epoch sequence leases memory
    simp only [next, answer, projectionMachine, machine,
      VersionedMachine.Explains, Prod.map]
    generalize applySnapshot p epoch sequence leases memory = out at h
    cases h with
    | refused hepoch => exact ⟨.idle, .idle, rfl, by simp [hepoch]⟩
    | stale => exact ⟨.idle, .idle, rfl, rfl⟩
    | @asked result hepoch hstale hne _ =>
      refine ⟨.desync _, Cursor.requireSnapshot_step
        (Cursor.lt_of_not_snapshotStale hstale), ?_, rfl⟩
      cases result <;> simp_all
    | applied hepoch hstale _ _ _ => exact ⟨.snapshot _, Cursor.install_step hstale hepoch, by simp⟩
  | applyUpdate epoch sequence lease =>
    have h := applyUpdate_outcome p epoch sequence lease
    simp only [next, answer, projectionMachine, machine,
      VersionedMachine.Explains, Prod.map]
    generalize applyUpdate p epoch sequence lease = out at h
    cases h with
    | refused hzero =>
      refine ⟨.idle, .idle, rfl, ?_⟩
      rcases hzero with hzero | hzero <;> simp [hzero]
    | stale => exact ⟨.idle, .idle, rfl, rfl⟩
    | @asked result _ _ hlt hne _ =>
      refine ⟨.desync _, Cursor.requireSnapshot_step hlt, ?_, rfl⟩
      cases result <;> simp_all
    | applied hsync hlt _ => exact ⟨.next _, Cursor.next_step hsync hlt, by simp⟩
  | reserve tenantId resource amount nowUnixMs =>
    have h := reserve_outcome p tenantId resource amount nowUnixMs
    simp only [next, answer, projectionMachine, machine,
      VersionedMachine.Explains, Prod.map]
    generalize reserve p tenantId resource amount nowUnixMs = out at h
    cases h with
    | denied _ _ | ok _ _ _ _ _ => exact ⟨.idle, .idle, by simp⟩
  | release tenantId resource amount =>
    have h := release_outcome p tenantId resource amount
    simp only [next, answer, projectionMachine, machine,
      VersionedMachine.Explains, Prod.map]
    generalize release p tenantId resource amount = out at h
    cases h with
    | denied | ok _ _ _ _ => exact ⟨.idle, .idle, by simp⟩

theorem projection_stale_unchanged (p : Projection) (op : Op)
    (h : machine.answer p op = .apply .stale) : machine.next p op = p := by
  cases op with
  | applySnapshot epoch sequence leases memory =>
    have hout := applySnapshot_outcome p epoch sequence leases memory
    simp only [next, answer, machine, Prod.map] at h ⊢
    generalize applySnapshot p epoch sequence leases memory = out at h hout
    cases hout <;> simp_all
  | applyUpdate epoch sequence lease =>
    have hout := applyUpdate_outcome p epoch sequence lease
    simp only [next, answer, machine, Prod.map] at h ⊢
    generalize applyUpdate p epoch sequence lease = out at h hout
    cases hout <;> simp_all
  | reserve tenantId resource amount nowUnixMs | release tenantId resource amount =>
    simp [answer, machine] at h

/-- Every reservation answers UNKNOWN, or ERROR for bad arguments, and changes
nothing. -/
def ReserveRefused (p : Projection) : Prop :=
  ∀ tenantId resource amount nowUnixMs, (reserve p tenantId resource amount nowUnixMs).1 = p ∧
      ((reserve p tenantId resource amount nowUnixMs).2 = .unknown ∨
        (reserve p tenantId resource amount nowUnixMs).2 = .error)

theorem reserve_refused {p : Projection} (h : p.synchronized = false) : ReserveRefused p := by
  intro tenantId resource amount nowUnixMs
  have hout := reserve_outcome p tenantId resource amount nowUnixMs
  generalize reserve p tenantId resource amount nowUnixMs = out at hout
  cases hout with
  | denied _ hres => exact ⟨rfl, hres h⟩
  | ok _ hsync _ _ _ => simp [h] at hsync

end Projection

section Revocation

open Revocation

/-- The revocation state as a versioned machine.  An ERROR asks for a snapshot
when the arguments passed the first check. -/
def revocationMachine : VersionedMachine State Op ApplyResult Version where
  toMachine := machine
  view state := state.toCursor.view
  stamp
    | .applySnapshot epoch sequence _ _ => Version.of epoch sequence
    | .applyRevoke epoch sequence _ => Version.of epoch sequence
  isSnapshot
    | .applySnapshot _ _ _ _ => true
    | .applyRevoke _ _ _ => false
  applied
    | _, .applied => true
    | _, _ => false
  asks
    | _, .gap => true
    | _, .limit => true
    | .applySnapshot epoch _ sha256Hex _, .error => epoch != 0 && sha256Hex.isSome
    | .applyRevoke epoch sequence sha256Hex, .error =>
      epoch != 0 && sequence != 0 && sha256Hex.isSome
    | _, _ => false

theorem revocationMachine_tracks : revocationMachine.Tracks := by
  intro state op
  cases op with
  | applySnapshot epoch sequence sha256Hex memory =>
    have h := applySnapshot_outcome state epoch sequence sha256Hex memory
    simp only [next, answer, revocationMachine, machine, VersionedMachine.Explains]
    generalize applySnapshot state epoch sequence sha256Hex memory = out at h
    cases h with
    | refused hbad =>
      refine ⟨.idle, .idle, rfl, ?_⟩
      rcases hbad with hbad | hbad <;> simp [hbad]
    | stale => exact ⟨.idle, .idle, rfl, rfl⟩
    | @asked _ result hepoch hstale hne _ =>
      refine ⟨.desync _, revocationRequireSnapshot_step hepoch
        (Cursor.lt_of_not_snapshotStale hstale), ?_, rfl⟩
      cases result <;> simp_all
    | applied hepoch hstale _ => exact ⟨.snapshot _, Cursor.install_step hstale hepoch, by simp⟩
  | applyRevoke epoch sequence sha256Hex =>
    have h := applyRevoke_outcome state epoch sequence sha256Hex
    simp only [next, answer, revocationMachine, machine, VersionedMachine.Explains]
    generalize applyRevoke state epoch sequence sha256Hex = out at h
    cases h with
    | refused hbad =>
      refine ⟨.idle, .idle, rfl, ?_⟩
      rcases hbad with hbad | hbad | hbad <;> simp [hbad]
    | stale => exact ⟨.idle, .idle, rfl, rfl⟩
    | @asked _ result hepoch hlt hne _ =>
      refine ⟨.desync _, revocationRequireSnapshot_step hepoch hlt, ?_, rfl⟩
      cases result <;> simp_all
    | applied hsync hlt hepoch _ _ _ =>
      subst hepoch
      exact ⟨.next _, Watermark.Step.next hsync hlt, rfl, by simp, rfl⟩

theorem revocation_stale_unchanged (state : State) (op : Op)
    (h : machine.answer state op = .stale) : machine.next state op = state := by
  cases op with
  | applySnapshot epoch sequence sha256Hex memory =>
    have hout := applySnapshot_outcome state epoch sequence sha256Hex memory
    simp only [next, answer, machine] at h ⊢
    generalize applySnapshot state epoch sequence sha256Hex memory = out at h hout
    cases hout <;> simp_all
  | applyRevoke epoch sequence sha256Hex =>
    have hout := applyRevoke_outcome state epoch sequence sha256Hex
    simp only [next, answer, machine] at h ⊢
    generalize applyRevoke state epoch sequence sha256Hex = out at h hout
    cases hout <;> simp_all

def CheckRefused (state : State) : Prop :=
  ∀ sha256, checkDigest state sha256 = .unknown

end Revocation

section Allocator

open TenantQuotaAllocator

/-- The quota allocator as a versioned machine.  GAP and UNKNOWN ask for a
snapshot, and so does the ERROR of a snapshot with an epoch; its LIMIT does
not. -/
def allocatorMachine : VersionedMachine Allocator Op Answer Version where
  toMachine := machine
  view a := a.toCursor.view
  stamp
    | .applySnapshot epoch sequence _ _ _ _ => Version.of epoch sequence
    | .setPolicy epoch sequence _ _ => Version.of epoch sequence
    | .grant epoch sequence _ _ => Version.of epoch sequence
    | .revoke epoch sequence _ _ _ => Version.of epoch sequence
    | .buildNodeSnapshot _ _ _ => ⊥
    | .commitment _ _ => ⊥
  isSnapshot
    | .applySnapshot _ _ _ _ _ _ => true
    | _ => false
  applied
    | _, .result .applied => true
    | _, _ => false
  asks
    | _, .result .gap => true
    | _, .result .unknown => true
    | .applySnapshot epoch _ _ _ _ _, .result .error => epoch != 0
    | _, _ => false

def callTime : Op → UInt64
  | .applySnapshot _ _ _ _ nowUnixMs _ => nowUnixMs
  | .setPolicy _ _ _ nowUnixMs => nowUnixMs
  | .grant _ _ _ nowUnixMs => nowUnixMs
  | .revoke _ _ _ _ nowUnixMs => nowUnixMs
  | .buildNodeSnapshot _ nowUnixMs _ => nowUnixMs
  | .commitment _ nowUnixMs => nowUnixMs

theorem update_step {a : Allocator} {epoch sequence nowUnixMs : UInt64}
    {out : Allocator × AllocatorResult} (h : UpdateOutcome a epoch sequence nowUnixMs out) :
    ∃ l, Watermark.Step a.toCursor.view l out.1.toCursor.view ∧
      (l = .idle ∧ out.2 ≠ .applied ∧ out.2 ≠ .gap ∧ out.2 ≠ .unknown ∨
        l = .next (Version.of epoch sequence) ∧ out.2 = .applied ∨
        l = .desync (Version.of epoch sequence) ∧ out.2 ≠ .applied) := by
  cases h with
  | refused | stale _ => exact ⟨.idle, .idle, by simp⟩
  | unknown hsync => exact ⟨.desync _, Cursor.requireSnapshot_step (by simp [hsync]), by simp⟩
  | gap _ hlt => exact ⟨.desync _, Cursor.requireSnapshot_step (fun _ => hlt), by simp⟩
  | rejected _ hres =>
    refine ⟨.idle, .idle, Or.inl ⟨rfl, ?_⟩⟩
    rcases hres with rfl | rfl | rfl <;> simp
  | applied hsync hlt hepoch hwrite =>
    subst hepoch
    refine ⟨.next (Version.of a.epoch sequence), ?_, by simp⟩
    cases hwrite with
    | policy _ _ _ _ | lease _ _ _ _ _ _ | drop _ => exact Watermark.Step.next hsync hlt

theorem allocator_applied_result (op : Op) (result : AllocatorResult) :
    allocatorMachine.applied op (.result result) = (result == .applied) := by
  cases result <;> rfl

theorem allocator_asks_result {op : Op} (hsnap : allocatorMachine.isSnapshot op = false)
    (result : AllocatorResult) :
    allocatorMachine.asks op (.result result) = (result == .gap || result == .unknown) := by
  cases op with
  | applySnapshot epoch sequence policies leases nowUnixMs memory =>
    simp [allocatorMachine] at hsnap
  | _ => cases result <;> rfl

theorem update_explained {a : Allocator} {op : Op} {epoch sequence nowUnixMs : UInt64}
    {out : Allocator × AllocatorResult} (hout : UpdateOutcome a epoch sequence nowUnixMs out)
    (hstamp : allocatorMachine.stamp op = Version.of epoch sequence)
    (hsnap : allocatorMachine.isSnapshot op = false) :
    ∃ l, Watermark.Step a.toCursor.view l out.1.toCursor.view ∧
        allocatorMachine.Explains op (.result out.2) l := by
  obtain ⟨l, hl, hcase⟩ := update_step hout
  refine ⟨l, hl, ?_⟩
  rcases hcase with ⟨rfl, h₁, h₂, h₃⟩ | ⟨rfl, h₁⟩ | ⟨rfl, h₁⟩
  · constructor
    · simpa [allocator_applied_result] using h₁
    · simp [allocator_asks_result hsnap, h₂, h₃]
  · exact ⟨by simp [allocator_applied_result, h₁], hsnap, hstamp.symm⟩
  · exact ⟨by simpa [allocator_applied_result] using h₁, hstamp.symm⟩

theorem buildNodeSnapshot_state (a : Allocator) (nodeId : CStr) (nowUnixMs : UInt64)
    (capacity : ℕ) :
    (buildNodeSnapshot a nodeId nowUnixMs capacity).1 = a ∨
      (buildNodeSnapshot a nodeId nowUnixMs capacity).1 = allocatorPruneExpired a nowUnixMs := by
  unfold buildNodeSnapshot
  dsimp only
  split_ifs <;> simp

theorem commitment_state (a : Allocator) (tenantId : CStr) (nowUnixMs : UInt64) :
    (commitment a tenantId nowUnixMs).1 = a ∨
      (commitment a tenantId nowUnixMs).1 = allocatorPruneExpired a nowUnixMs := by
  unfold commitment
  split
  · exact Or.inl rfl
  · right
    dsimp only
    cases allocatorFindPolicy (allocatorPruneExpired a nowUnixMs) tenantId with
    | none => rfl
    | some e =>
      dsimp only
      split <;> rfl

/-- All that a call can do to an allocator. -/
inductive CallOutcome (a : Allocator) (op : Op) : Allocator × Answer → Prop where
  | snapshot
      {epoch sequence nowUnixMs : UInt64} {policies : Option (List Policy)}
      {leases : Option (List TenantQuota.Lease)} {memory : SnapshotMemory}
      {out : Allocator × AllocatorResult}
      (hop : op = .applySnapshot epoch sequence policies leases nowUnixMs memory)
      (hout : SnapshotOutcome a epoch sequence nowUnixMs policies leases out) :
      CallOutcome a op (out.1, .result out.2)
  | update
      {epoch sequence : UInt64} {out : Allocator × AllocatorResult}
      (hstamp : allocatorMachine.stamp op = Version.of epoch sequence)
      (hsnap : allocatorMachine.isSnapshot op = false)
      (hout : UpdateOutcome a epoch sequence (callTime op) out) :
      CallOutcome a op (out.1, .result out.2)
  | query
      {b : Allocator} {answer : Answer}
      (hb : b = a ∨ b = allocatorPruneExpired a (callTime op))
      (hans : ∀ result, answer ≠ .result result) :
      CallOutcome a op (b, answer)

theorem call_outcome (a : Allocator) (op : Op) :
    CallOutcome a op (machine.next a op, machine.answer a op) := by
  cases op with
  | applySnapshot epoch sequence policies leases nowUnixMs memory =>
    exact .snapshot rfl (applySnapshot_outcome a epoch sequence nowUnixMs policies leases memory)
  | setPolicy epoch sequence policy nowUnixMs =>
    exact .update rfl rfl (setPolicy_outcome a epoch sequence nowUnixMs policy)
  | grant epoch sequence lease nowUnixMs =>
    exact .update rfl rfl (grant_outcome a epoch sequence nowUnixMs lease)
  | revoke epoch sequence tenantId nodeId nowUnixMs =>
    exact .update rfl rfl (revoke_outcome a epoch sequence nowUnixMs tenantId nodeId)
  | buildNodeSnapshot nodeId nowUnixMs capacity =>
    exact .query (buildNodeSnapshot_state a nodeId nowUnixMs capacity) nofun
  | commitment tenantId nowUnixMs => exact .query (commitment_state a tenantId nowUnixMs) nofun

theorem allocatorMachine_tracks : allocatorMachine.Tracks := by
  intro a op
  have hcall := call_outcome a op
  change ∃ l, Watermark.Step a.toCursor.view l (machine.next a op).toCursor.view ∧
    allocatorMachine.Explains op (machine.answer a op) l
  generalize machine.next a op = b, machine.answer a op = answer at hcall
  cases hcall with
  | snapshot hop hout =>
    subst hop
    cases hout with
    | refused hepoch => exact ⟨.idle, .idle, rfl, by simp [allocatorMachine, hepoch]⟩
    | stale => exact ⟨.idle, .idle, rfl, rfl⟩
    | asked hepoch hstale =>
      exact ⟨.desync _, Cursor.requireSnapshot_step
        (Cursor.lt_of_not_snapshotStale hstale), rfl, rfl⟩
    | applied hepoch hstale _ _ _ _ _ =>
      exact ⟨.snapshot _, Cursor.install_step hstale hepoch, rfl, rfl, rfl⟩
  | update hstamp hsnap hout => exact update_explained hout hstamp hsnap
  | query hb hans =>
    refine ⟨.idle, ?_, ?_⟩
    · rcases hb with rfl | rfl <;> exact .idle
    · cases answer with
      | result result => exact absurd rfl (hans result)
      | _ => cases op <;> exact ⟨rfl, rfl⟩

theorem allocator_stale_unchanged (a : Allocator) (op : Op)
    (h : machine.answer a op = .result .stale) : machine.next a op = a := by
  have hcall := call_outcome a op
  generalize machine.next a op = b, machine.answer a op = answer at h hcall
  subst h
  generalize hresult : AllocatorResult.stale = result at hcall
  cases hcall with
  | snapshot _ hout => cases hout <;> simp_all
  | update _ _ hout =>
    cases hout with
    | rejected _ hor =>
      subst hresult
      simp at hor
    | _ => simp_all
  | query _ hans => exact absurd rfl (hans _)

/-- Every grant answers UNKNOWN, or ERROR for bad arguments, and issues
nothing. -/
def GrantRefused (a : Allocator) : Prop :=
  ∀ epoch sequence lease nowUnixMs,
    (grant a epoch sequence lease nowUnixMs).1.policies = a.policies ∧
      (grant a epoch sequence lease nowUnixMs).1.leases = a.leases ∧
      ((grant a epoch sequence lease nowUnixMs).2 = .unknown ∨
        (grant a epoch sequence lease nowUnixMs).2 = .error)

theorem grant_refused {a : Allocator} (h : a.synchronized = false) : GrantRefused a := by
  intro epoch sequence lease nowUnixMs
  have hout := grant_outcome a epoch sequence nowUnixMs lease
  generalize grant a epoch sequence lease nowUnixMs = out at hout
  cases hout <;> simp_all [allocatorRequireSnapshot]

/-- The allocator answered OVERCOMMITTED, LIMIT or NOT_FOUND. -/
def Rejected (answer : Answer) : Prop :=
  answer = .result .overcommitted ∨ answer = .result .limit ∨ answer = .result .notFound

/-- Version fields and policies are the same, and the leases are those that are
live at the call. -/
structure KeepsLive (nowUnixMs : UInt64) (a a' : Allocator) : Prop where
  cursor : a'.toCursor = a.toCursor
  policies : a'.policies = a.policies
  kept : ∀ (index : ℕ) (lease : TenantQuota.Lease),
    a.leases[index]? = some (some lease) →
    nowUnixMs < lease.expiresAtUnixMs → a'.leases[index]? = some (some lease)
  nothing_new : ∀ (index : ℕ) (lease : TenantQuota.Lease), a'.leases[index]? = some (some lease) →
    a.leases[index]? = some (some lease)

theorem prune_keepsLive (a : Allocator) (nowUnixMs : UInt64) :
    KeepsLive nowUnixMs a (allocatorPruneExpired a nowUnixMs) where
  cursor := rfl
  policies := rfl
  kept index lease hget hlive := by
    have hun : unexpired nowUnixMs lease = true := by
      simpa [unexpired] using UInt64.not_le.mpr hlive
    simp [allocatorPruneExpired, hget, Option.filter, hun]
  nothing_new index lease hget := by
    simp only [allocatorPruneExpired, List.getElem?_map, Option.map_eq_some_iff,
      Option.filter_eq_some_iff] at hget
    obtain ⟨o, ho, hlease, _⟩ := hget
    rw [ho, hlease]

theorem rejected_keepsLive (a : Allocator) (op : Op) (h : Rejected (machine.answer a op)) :
    KeepsLive (callTime op) a (machine.next a op) := by
  have hcall := call_outcome a op
  generalize machine.next a op = b, machine.answer a op = answer at h hcall
  cases hcall with
  | snapshot _ hout => cases hout <;> simp [Rejected] at h
  | update _ _ hout =>
    cases hout with
    | rejected _ _ => exact prune_keepsLive a _
    | _ => simp [Rejected] at h
  | query _ hans => rcases h with rfl | rfl | rfl <;> exact absurd rfl (hans _)

end Allocator

/-- **Versioned views never regress and fail closed.**  Each of the three
machines is disciplined from its created state, and an allocator call that is
rejected keeps version, policies and live leases. -/
theorem controlPlane_fails_closed
    {nodeId : CStr} {maxSlots maxTenants maxIssuedLeases maxEntries : ℕ}
    {p₀ : TenantQuota.Projection} {a₀ : TenantQuotaAllocator.Allocator} {r₀ : Revocation.State}
    (hp : TenantQuota.projectionCreate nodeId maxSlots = some p₀)
    (ha : TenantQuotaAllocator.create maxTenants maxIssuedLeases = some a₀)
    (hr : Revocation.stateCreate maxEntries = some r₀) :
    Disciplined allocatorMachine (· = .result .stale) GrantRefused a₀ ∧
    Disciplined projectionMachine (· = .apply .stale) ReserveRefused p₀ ∧
    Disciplined revocationMachine (· = .stale) CheckRefused r₀ ∧ ∀ ops op,
      Rejected (allocatorMachine.answer (allocatorMachine.run a₀ ops) op) →
        KeepsLive (callTime op) (allocatorMachine.run a₀ ops)
          (allocatorMachine.run a₀ (ops ++ [op])) := by
  have hp₀ : p₀.toCursor = Cursor.create := by
    unfold TenantQuota.projectionCreate at hp
    split_ifs at hp
    rw [← Option.some.inj hp]
  have ha₀ : a₀.toCursor = Cursor.create := by
    unfold TenantQuotaAllocator.create at ha
    split_ifs at ha
    rw [← Option.some.inj ha]
  have hr₀ : r₀.toCursor = Cursor.create := by
    unfold Revocation.stateCreate at hr
    split_ifs at hr
    rw [← Option.some.inj hr]
  refine ⟨?_, ?_, ?_, ?_⟩
  · refine disciplined_of_tracks allocatorMachine_tracks ?_
      allocator_stale_unchanged (fun a h => grant_refused h)
    simpa [allocatorMachine, ha₀] using Cursor.create_wellFormed
  · refine disciplined_of_tracks projectionMachine_tracks ?_
      projection_stale_unchanged (fun p h => reserve_refused h)
    simpa [projectionMachine, hp₀] using Cursor.create_wellFormed
  · refine disciplined_of_tracks revocationMachine_tracks ?_
      revocation_stale_unchanged
      (fun state h => Revocation.checkDigest_unsynchronized h)
    simpa [revocationMachine, hr₀] using Cursor.create_wellFormed
  · intro ops op h
    rw [run_append]
    exact rejected_keepsLive _ op h

/-- A node misses version (1, 2), and recovers with the snapshot at (1, 3). -/
theorem controlPlane_fails_closed_missedUpdate :
    ∃ p₀, TenantQuota.projectionCreate [110] 1 = some p₀ ∧ ReserveRefused (projectionMachine.run p₀
        [.applySnapshot 1 1 (some []) true, .applyUpdate 1 3 none]) ∧
      projectionMachine.run p₀ [.applySnapshot 1 1 (some []) true, .applyUpdate 1 3 none,
          .applySnapshot 1 2 (some []) true] =
        projectionMachine.run p₀ [.applySnapshot 1 1 (some []) true, .applyUpdate 1 3 none] ∧
      Version.of 1 1 < (projectionMachine.view (projectionMachine.run p₀
        [.applySnapshot 1 1 (some []) true, .applyUpdate 1 3 none,
          .applySnapshot 1 3 (some []) true])).current := by
  refine ⟨_, rfl, ?_⟩
  have h := (controlPlane_fails_closed (by rfl : TenantQuota.projectionCreate [110] 1 = some _)
    (by rfl : TenantQuotaAllocator.create 1 1 = some _)
    (by rfl : Revocation.stateCreate 1 = some _)).2.1
  refine ⟨?_, ?_, ?_⟩
  · exact h.refuses [.applySnapshot 1 1 (some []) true] (.applyUpdate 1 3 none) []
      (by decide) (by decide) ⟨by decide, trivial⟩
  · exact h.stale_unchanged
      [.applySnapshot 1 1 (some []) true, .applyUpdate 1 3 none]
      (.applySnapshot 1 2 (some []) true) (by decide)
  · exact h.applied_increases
      [.applySnapshot 1 1 (some []) true, .applyUpdate 1 3 none]
      (.applySnapshot 1 3 (some []) true) (by decide)

end TurboMedia.ControlPlaneRuns
